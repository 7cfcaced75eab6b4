import QuasarDB.Library.Results
import QuasarDB.Storage.Proofs.Conditions
import QuasarDB.Storage.Proofs.Statements

set_option autoImplicit false

/-! # The assignments of an `UPDATE`

The assignments of an `UPDATE` are made one after the other, in the record that the next ones read. They
are the assignments of the old row if and only if no column is read after it has got another value. -/

namespace QuasarDB.Storage

open Prog Server

/-! ## Making assignments -/

/-- The fields of a record after all assignments were made at once. -/
structure Assigned (store : StringStore) (schema : Schema) (assignments : List (String × Expression))
    (record : Record) (fields : List Value) : Prop where
  assigned : ∀ column expression index, (column, expression) ∈ assignments →
    schema.columnIndex column = some index →
    fields[index]? = store.valueOf schema record expression
  others : ∀ index, (∀ a ∈ assignments, schema.columnIndex a.1 ≠ some index) →
    fields[index]? = record.fields[index]?

/-- An assignment that reads a column which an earlier one has assigned finds there what was there
    before. -/
def ReadsOld (store : StringStore) (schema : Schema) (assignments : List (String × Expression))
    (record : Record) : Prop :=
  assignments.Pairwise fun earlier later => later.2 = .identifier earlier.1 →
    store.valueOf schema record earlier.2 = store.valueOf schema record (.identifier earlier.1)

theorem Schema.columnIndex_inj {schema : Schema} {c d : String} {i : Nat}
    (hc : schema.columnIndex c = some i) (hd : schema.columnIndex d = some i) : c = d := by
  obtain ⟨_, hnamed, -⟩ := List.findIdx?_eq_some_iff_getElem.1 hc
  obtain ⟨_, hnamed', -⟩ := List.findIdx?_eq_some_iff_getElem.1 hd
  exact (beq_iff_eq.1 hnamed).symm.trans (beq_iff_eq.1 hnamed')

section Assign

open Executor

variable {schema : Schema} {store store' later : StringStore} {record record' old : Record}
  {assignments : List (String × Expression)} {column : String} {expression : Expression}

/-- One assignment, and the others. -/
theorem assign_cons_eq_ok
    (h : assign schema ((column, expression) :: assignments) record store = .ok record' store') :
    ∃ index value store₁, schema.columnIndex column = some index ∧
      expressionValue expression schema record store = .ok value store₁ ∧
      assign schema assignments { record with fields := record.fields.set index value } store₁
        = .ok record' store' := by
  rw [assign] at h
  cases hindex : schema.columnIndex column with
  | none =>
      rw [hindex] at h
      cases h
  | some index =>
      simp only [hindex] at h
      obtain ⟨value, store₁, hvalue, h₁⟩ := Prog.bind_eq_ok.1 h
      exact ⟨index, value, store₁, rfl, hvalue, h₁⟩

theorem assign_settles (h : assign schema assignments record store = .ok record' store') :
    store.Settles store' := by
  induction assignments generalizing record store with
  | nil =>
      obtain ⟨rfl, rfl⟩ := Prog.pure_eq_ok.1 h
      exact .refl
  | cons a assignments ih =>
      obtain ⟨index, value, store₁, -, hvalue, h₁⟩ := assign_cons_eq_ok h
      have hsettles : store.Settles store₁ :=
        (expressionValue_eq_ok hvalue).1 ▸ StringStore.settles_rememberAll _
      exact hsettles.trans (ih h₁)

theorem assign_id (h : assign schema assignments record store = .ok record' store') :
    record'.id = record.id := by
  induction assignments generalizing record store with
  | nil =>
      obtain ⟨rfl, rfl⟩ := Prog.pure_eq_ok.1 h
      rfl
  | cons a assignments ih =>
      obtain ⟨index, value, store₁, -, -, h₁⟩ := assign_cons_eq_ok h
      have hid := ih h₁
      exact hid

theorem assign_known (h : assign schema assignments record store = .ok record' store')
    (hmem : column ∈ assignments.map Prod.fst) : ∃ i, schema.columnIndex column = some i := by
  induction assignments generalizing record store with
  | nil => cases hmem
  | cons a assignments ih =>
      obtain ⟨index, value, store₁, hindex, -, h₁⟩ := assign_cons_eq_ok h
      rcases List.mem_cons.1 hmem with rfl | hmem
      · exact ⟨index, hindex⟩
      · exact ih h₁ hmem

/-- A column that is not assigned keeps its value. -/
theorem assign_others (h : assign schema assignments record store = .ok record' store') {i : Nat}
    (hi : ∀ a ∈ assignments, schema.columnIndex a.1 ≠ some i) :
    record'.fields[i]? = record.fields[i]? := by
  induction assignments generalizing record store with
  | nil =>
      obtain ⟨rfl, rfl⟩ := Prog.pure_eq_ok.1 h
      rfl
  | cons a assignments ih =>
      obtain ⟨index, value, store₁, hindex, -, h₁⟩ := assign_cons_eq_ok h
      obtain ⟨hne, hothers⟩ := List.forall_mem_cons.1 hi
      rw [ih h₁ hothers]
      refine List.getElem?_set_ne ?_
      rintro rfl
      exact hne hindex

theorem valueOf_identifier {index : Nat} (hindex : schema.columnIndex column = some index) :
    store.valueOf schema record (.identifier column) = record.fields[index]? := by
  rw [StringStore.valueOf, hindex]
  rfl

theorem valueOf_set_self {index : Nat} {value : Value}
    (hlength : record.fields.length = schema.columns.length)
    (hindex : schema.columnIndex column = some index) :
    store.valueOf schema { record with fields := record.fields.set index value } (.identifier column)
      = some value := by
  rw [valueOf_identifier hindex]
  refine List.getElem?_set_self ?_
  rw [hlength]
  exact (List.findIdx?_eq_some_iff_findIdx_eq.1 hindex).1

theorem valueOf_set_of_ne {index : Nat} {value : Value}
    (hindex : schema.columnIndex column = some index) (hne : expression ≠ .identifier column) :
    store.valueOf schema { record with fields := record.fields.set index value } expression
      = store.valueOf schema record expression := by
  cases expression with
  | literal literal => rfl
  | aggregate function name => rfl
  | identifier name =>
      cases hname : schema.columnIndex name with
      | none => simp only [StringStore.valueOf, hname, Option.bind_none]
      | some j =>
          rw [valueOf_identifier hname, valueOf_identifier hname]
          refine List.getElem?_set_ne ?_
          rintro rfl
          exact hne (by rw [Schema.columnIndex_inj hname hindex])

/-- What a column got, in a record with as many fields as the schema has columns. -/
theorem assign_head {index : Nat} {value : Value} {store₁ : StringStore}
    (hlength : record.fields.length = schema.columns.length)
    (hindex : schema.columnIndex column = some index) (hfresh : column ∉ assignments.map Prod.fst)
    (h : assign schema assignments { record with fields := record.fields.set index value } store₁
      = .ok record' store') : record'.fields[index]? = some value := by
  have hlt : index < record.fields.length := by
    rw [hlength]
    exact (List.findIdx?_eq_some_iff_findIdx_eq.1 hindex).1
  rw [assign_others h, List.getElem?_set_self hlt]
  intro a ha heq
  exact hfresh (Schema.columnIndex_inj hindex heq ▸ List.mem_map_of_mem ha)

/-- A column that got the value of one that is not assigned. -/
theorem assign_copies (hlength : record.fields.length = schema.columns.length)
    (hdistinct : (assignments.map Prod.fst).Nodup)
    (h : assign schema assignments record store = .ok record' store') {source : String} {i j : Nat}
    (hmem : (column, .identifier source) ∈ assignments)
    (hfresh : source ∉ assignments.map Prod.fst) (hi : schema.columnIndex column = some i)
    (hj : schema.columnIndex source = some j) : record'.fields[i]? = record.fields[j]? := by
  induction assignments generalizing record store with
  | nil => cases hmem
  | cons a assignments ih =>
      obtain ⟨index, value, store₁, hindex, hvalue, h₁⟩ := assign_cons_eq_ok h
      obtain ⟨hnew, hdistinct⟩ := List.nodup_cons.1 hdistinct
      obtain ⟨hne, hfresh⟩ := not_or.1 (mt List.mem_cons.2 hfresh)
      rcases List.mem_cons.1 hmem with rfl | hmem
      · obtain rfl := Option.some.inj (hindex.symm.trans hi)
        rw [assign_head hlength hindex hnew h₁]
        have hlater := ((expressionValue_eq_ok hvalue).2 store₁ .refl).2
        rw [valueOf_identifier hj] at hlater
        exact hlater.symm
      · rw [ih (by rwa [List.length_set]) hdistinct h₁ hmem hfresh]
        refine List.getElem?_set_ne ?_
        rintro rfl
        exact hne (Schema.columnIndex_inj hj hindex)

/-- As long as the values to come are those of the old row, so are the fields. -/
theorem assign_assigned (hlength : record.fields.length = schema.columns.length)
    (hdistinct : (assignments.map Prod.fst).Nodup) (hreads : ReadsOld later schema assignments old)
    (hold : ∀ a ∈ assignments,
      later.valueOf schema record a.2 = later.valueOf schema old a.2)
    (h : assign schema assignments record store = .ok record' store') (hlater : store'.Settles later)
    {i : Nat} (hmem : (column, expression) ∈ assignments) (hi : schema.columnIndex column = some i) :
    record'.fields[i]? = later.valueOf schema old expression := by
  induction assignments generalizing record store with
  | nil => cases hmem
  | cons a assignments ih =>
      obtain ⟨index, value, store₁, hindex, hvalue, h₁⟩ := assign_cons_eq_ok h
      obtain ⟨hnew, hdistinct⟩ := List.nodup_cons.1 hdistinct
      obtain ⟨hhead, hreads⟩ := List.pairwise_cons.1 hreads
      obtain ⟨hfirst, hothers⟩ := List.forall_mem_cons.1 hold
      have hvalue : later.valueOf schema record a.2 = some value :=
        ((expressionValue_eq_ok hvalue).2 later ((assign_settles h₁).trans hlater)).2
      rcases List.mem_cons.1 hmem with rfl | hmem
      · obtain rfl := Option.some.inj (hindex.symm.trans hi)
        rw [assign_head hlength hindex hnew h₁, ← hfirst, hvalue]
      · refine ih (by rwa [List.length_set]) hdistinct hreads (fun b hb => ?_) h₁ hmem
        rw [← hothers b hb]
        by_cases hread : b.2 = .identifier a.1
        · -- the column just assigned has the value that it had in the old row
          have hsame := hhead b hb hread
          rw [← hfirst, hvalue, ← hread, ← hothers b hb] at hsame
          rw [← hsame, hread, valueOf_set_self hlength hindex]
        · exact valueOf_set_of_ne hindex hread

/-- If all columns have got the values of the old row, no column was read that had got another one. -/
theorem readsOld_of_assigned (hlength : record.fields.length = schema.columns.length)
    (hdistinct : (assignments.map Prod.fst).Nodup)
    (h : assign schema assignments record store = .ok record' store')
    (hassigned : ∀ column expression i, (column, expression) ∈ assignments →
      schema.columnIndex column = some i →
      record'.fields[i]? = later.valueOf schema old expression) :
    ReadsOld later schema assignments old := by
  induction assignments generalizing record store with
  | nil => exact List.Pairwise.nil
  | cons a assignments ih =>
      obtain ⟨index, value, store₁, hindex, -, h₁⟩ := assign_cons_eq_ok h
      obtain ⟨hnew, hdistinct⟩ := List.nodup_cons.1 hdistinct
      have hset : (record.fields.set index value).length = schema.columns.length := by
        rwa [List.length_set]
      refine List.pairwise_cons.2 ⟨fun b hb hread => ?_,
        ih hset hdistinct h₁ fun c e i hmem => hassigned c e i (List.mem_cons_of_mem _ hmem)⟩
      -- the later column is a copy of the earlier one
      obtain ⟨c, e⟩ := b
      obtain rfl : e = .identifier a.1 := hread
      obtain ⟨i, hi⟩ := assign_known h₁ (List.mem_map_of_mem hb)
      have hcopy := assign_copies hset hdistinct h₁ hb hnew hi hindex
      rw [hassigned c _ i (List.mem_cons_of_mem _ hb) hi] at hcopy
      rw [hcopy, ← hassigned a.1 a.2 index List.mem_cons_self hindex,
        assign_head hlength hindex hnew h₁]
      refine (List.getElem?_set_self ?_).symm
      rw [hlength]
      exact (List.findIdx?_eq_some_iff_findIdx_eq.1 hindex).1

/-- Assigning one after the other is assigning at once if and only if no column is read after it has got
    another value. -/
theorem assign_assigned_iff (hlength : record.fields.length = schema.columns.length)
    (hdistinct : (assignments.map Prod.fst).Nodup)
    (h : assign schema assignments record store = .ok record' store')
    (hlater : store'.Settles later) :
    Assigned later schema assignments record record'.fields ↔
      ReadsOld later schema assignments record := by
  constructor
  · intro hassigned
    exact readsOld_of_assigned hlength hdistinct h hassigned.assigned
  · intro hreads
    exact ⟨fun _ _ _ hmem hi => assign_assigned hlength hdistinct hreads (fun _ _ => rfl) h hlater hmem hi,
      fun _ hothers => assign_others h hothers⟩

end Assign

/-! ## Changed rows -/

namespace Rows

variable {rows : Rows}

/-- The rows with the values of the records in the places of theirs. -/
def setAll (rows : Rows) (records : List Record) : Rows :=
  records.foldl (fun rows record => rows.set record.id (some record.fields)) rows

theorem setAll_of_not_mem {records : List Record} {id : UInt32} (h : id ∉ records.map Record.id) :
    (rows.setAll records).row id = rows.row id := by
  induction records generalizing rows with
  | nil => rfl
  | cons record records ih =>
      obtain ⟨hne, hothers⟩ := not_or.1 (mt List.mem_cons.2 h)
      rw [setAll, List.foldl_cons, ← setAll, ih hothers, set_other _ hne]

theorem setAll_of_mem {records : List Record} {record : Record}
    (hnodup : (records.map Record.id).Nodup) (h : record ∈ records) :
    (rows.setAll records).row record.id = some record.fields := by
  induction records generalizing rows with
  | nil => cases h
  | cons first records ih =>
      obtain ⟨hfresh, hnodup⟩ := List.nodup_cons.1 hnodup
      rcases List.mem_cons.1 h with rfl | h
      · rw [setAll, List.foldl_cons, ← setAll, setAll_of_not_mem hfresh, set_self]
      · exact ih hnodup h

end Rows

namespace Executor

variable {table table' : Table} {rows : Rows} {stack : List Entry} (env : ExecutorEnv)

/-- A record without an error was updated. -/
theorem updateRecord_eq_ok {now : Track.Time} {record : Record}
    (h : Prog.catchException (do
      let _ ← Table.updateRecord now record
      return none) (fun what => pure (some what)) table = .ok (none : Option String) table') :
    ∃ address, Table.updateRecord now record table = .ok address table' := by
  rw [Prog.catchException] at h
  cases hupdate : Table.updateRecord now record table with
  | ok address t =>
      rw [bind_ok hupdate] at h
      cases h
      exact ⟨address, rfl⟩
  | error e t =>
      rw [bind_error hupdate] at h
      cases e <;> cases h

/-- An `update_multiple` without errors has updated every row. -/
theorem updateMultiple_eq_ok {now : Nat → Track.Time} {changed : List Record}
    (h : table.Tracks rows stack) (hnodup : (changed.map Record.id).Nodup)
    (hchanged : ∀ record ∈ changed, Changed table rows record)
    (hrun : Table.updateMultiple now changed table = .ok [] table') :
    ∃ stack', table'.Tracks (rows.setAll changed) stack' ∧ table'.strings = table.strings := by
  induction changed generalizing table rows stack now with
  | nil =>
      obtain ⟨-, rfl⟩ := Prog.pure_eq_ok.1 hrun
      exact ⟨stack, h, rfl⟩
  | cons record changed ih =>
      obtain ⟨hfresh, hnodup⟩ := List.nodup_cons.1 hnodup
      obtain ⟨hrecord, hothers⟩ := List.forall_mem_cons.1 hchanged
      obtain ⟨error, table₁, hcatch, h₁⟩ := Prog.bind_eq_ok.1 hrun
      obtain ⟨errors, table₂, hrest, h₂⟩ := Prog.bind_eq_ok.1 h₁
      obtain ⟨hnone, rfl⟩ := Prog.pure_eq_ok.1 h₂
      obtain ⟨hfirst, rfl⟩ := List.append_eq_nil_iff.1 hnone.symm
      obtain rfl := Option.toList_eq_nil_iff.1 hfirst
      obtain ⟨address, hupdate⟩ := updateRecord_eq_ok hcatch
      obtain ⟨fields, hrow⟩ := Option.isSome_iff_exists.1 hrecord.row
      have hsize := h.size_of_run_updateRecord hrow hrecord.candidate hupdate
      rcases h.run_updateRecord (now 0) hrow hrecord.candidate hrecord.known with
        ⟨-, -, hrun'⟩ | ⟨⟨what, herror⟩, -⟩
      · obtain ⟨address', table₂, hrun', htracks, hstrings, hschema, haddresses⟩ := hrun' hsize
        rw [hupdate] at hrun'
        cases hrun'
        have hstill : ∀ other ∈ changed,
            Changed table₁ (rows.set record.id (some record.fields)) other := fun other hmem =>
          (hothers other hmem).after_update (fun heq => hfresh (heq ▸ List.mem_map_of_mem hmem))
            hstrings hschema haddresses
        obtain ⟨stack', htracks', hstrings'⟩ := ih htracks hnodup hstill hrest
        exact ⟨stack', htracks', hstrings'.trans hstrings⟩
      · rw [herror] at hupdate
        cases hupdate

/-- A record and what became of it. -/
def AssignedOnce (schema : Schema) (assignments : List (String × Expression)) (later : StringStore)
    (record record' : Record) : Prop :=
  ∃ store store', assign schema assignments record store = .ok record' store' ∧ store'.Settles later

theorem AssignedOnce.id {schema : Schema} {assignments : List (String × Expression)}
    {later : StringStore} {record record' : Record}
    (h : AssignedOnce schema assignments later record record') : record'.id = record.id := by
  obtain ⟨store, store', hrun, -⟩ := h
  exact assign_id hrun

theorem assignedOnce_ids {schema : Schema} {assignments : List (String × Expression)}
    {later : StringStore} {matched changed : List Record}
    (h : List.Forall₂ (AssignedOnce schema assignments later) matched changed) :
    changed.map Record.id = matched.map Record.id := by
  induction h with
  | nil => rfl
  | cons hfirst _ ih => rw [List.map_cons, List.map_cons, ih, hfirst.id]

theorem assignAll_eq_ok {assignments : List (String × Expression)} {records changed : List Record}
    (h : assignAll assignments records table = .ok changed table') :
    table'.schema = table.schema ∧ table.strings.Settles table'.strings ∧
      List.Forall₂ (AssignedOnce table.schema assignments table'.strings) records changed := by
  induction records generalizing table changed with
  | nil =>
      obtain ⟨rfl, rfl⟩ := Prog.pure_eq_ok.1 h
      exact ⟨rfl, .refl, .nil⟩
  | cons record records ih =>
      rw [assignAll, run_get_bind] at h
      obtain ⟨record', table₁, hassign, h₁⟩ := Prog.bind_eq_ok.1 h
      obtain ⟨others, table₂, hrest, h₂⟩ := Prog.bind_eq_ok.1 h₁
      obtain ⟨rfl, rfl⟩ := Prog.pure_eq_ok.1 h₂
      rw [Table.onStrings, run_on] at hassign
      cases hrun : assign table.schema assignments record table.strings with
      | error e store =>
          rw [hrun] at hassign
          cases hassign
      | ok found store =>
          rw [hrun] at hassign
          cases hassign
          obtain ⟨hschema, hsettles, hothers⟩ := ih hrest
          refine ⟨hschema, (assign_settles hrun).trans hsettles, .cons ?_ hothers⟩
          exact ⟨_, store, hrun, hsettles⟩

/-- What a successful `UPDATE` did: the records it found, what became of them, and the table with
    them. -/
theorem executeUpdate_eq_ok {assignments : List (String × Expression)}
    {whereClause : Option Condition} {response : Core.Response} (h : table.Tracks rows stack)
    (hrun : executeUpdate env assignments whereClause table = .ok response table') :
    ∃ matched table₁ changed stack', matchingRecords env whereClause table = .ok matched table₁ ∧
      (matched.map Record.id).Nodup ∧ changed.map Record.id = matched.map Record.id ∧
      (∀ record ∈ matched, table.IsRecord rows record) ∧
      List.Forall₂ (AssignedOnce table.schema assignments table'.strings) matched changed ∧
      table'.Tracks (rows.setAll changed) stack' := by
  rw [executeUpdate] at hrun
  obtain ⟨matched, table₁, hmatching, h₁⟩ := Prog.bind_eq_ok.1 hrun
  obtain ⟨changed, table₂, hassign, h₂⟩ := Prog.bind_eq_ok.1 h₁
  obtain ⟨errors, table₃, hupdate, h₃⟩ := Prog.bind_eq_ok.1 h₂
  have hchanges : changes env assignments whereClause table = .ok changed table₂ := by
    rw [changes, bind_ok hmatching, hassign]
  obtain ⟨hgrows, hmatched⟩ := (matchingRecords_along env h.toRepresents whereClause).of_ok hmatching
  obtain ⟨hgrows₂, hnodup, hchanged⟩ := (changes_along env h assignments whereClause).of_ok hchanges
  obtain ⟨hschema, -, hassigned⟩ := assignAll_eq_ok hassign
  cases errors with
  | cons error errors => cases h₃
  | nil =>
      obtain ⟨-, rfl⟩ := Prog.pure_eq_ok.1 h₃
      obtain ⟨stack', htracks, hstrings⟩ := updateMultiple_eq_ok (hgrows₂.tracks h) hnodup hchanged hupdate
      have hids := assignedOnce_ids hassigned
      have hschema₁ : table₁.schema = table.schema := by
        obtain ⟨strings, -, rfl⟩ := hgrows
        rfl
      rw [hschema₁, ← hstrings] at hassigned
      refine ⟨matched, table₁, changed, stack', hmatching, hids ▸ hnodup, hids, fun record hrecord => ?_,
        hassigned, htracks⟩
      rw [← h.mem_recordsOf]
      exact hmatched.subset hrecord

/-- A successful `UPDATE` leaves the rows that it does not match, and gives the columns of those that it
    matches the values of its right-hand sides in the old rows, if and only if no right-hand side reads a
    column that an earlier assignment has changed. -/
theorem executeUpdate_assigns_iff {n : Nat} (h : Table.Run n table rows stack) (hn : n < 2 ^ 32)
    {assignments : List (String × Expression)} (hdistinct : (assignments.map Prod.fst).Nodup)
    {whereClause : Option Condition} {response : Core.Response}
    (hrun : executeUpdate env assignments whereClause table = .ok response table') :
    ∃ matched table₁ rows' stack', matchingRecords env whereClause table = .ok matched table₁ ∧
      table'.Tracks rows' stack' ∧
      (∀ id, id ∉ matched.map Record.id → rows'.row id = rows.row id) ∧
      (∀ record ∈ matched, rows.row record.id = some record.fields) ∧
      ((∀ record ∈ matched, ∃ fields, rows'.row record.id = some fields ∧
          Assigned table'.strings table.schema assignments record fields) ↔
        ∀ record ∈ matched, ReadsOld table'.strings table.schema assignments record) := by
  obtain ⟨htracks, -⟩ := h.tracks hn
  obtain ⟨matched, table₁, changed, stack', hmatching, hnodup, hids, hold, hassigned, htracks'⟩ :=
    executeUpdate_eq_ok env htracks hrun
  refine ⟨matched, table₁, rows.setAll changed, stack', hmatching, htracks', fun id hid => ?_,
    fun record hrecord => (hold record hrecord).row, ?_⟩
  · exact Rows.setAll_of_not_mem (by rwa [hids])
  · refine forall₂_congr fun record hrecord => ?_
    obtain ⟨record', hmem, hone⟩ := hassigned.exists_of_mem hrecord
    have hrow : (rows.setAll changed).row record.id = some record'.fields := by
      rw [← hone.id]
      exact Rows.setAll_of_mem (by rwa [hids]) hmem
    obtain ⟨store, store', hassign, hsettles⟩ := hone
    have hlength : record.fields.length = table.schema.columns.length :=
      (htracks.sound.allowed _ _ (hold record hrecord).row).length
    rw [hrow, ← assign_assigned_iff hlength hdistinct hassign hsettles]
    simp

/-! ## Two columns that change places -/

/-- A table of two columns, with as many ids given. -/
def pairSchema (recordIdCount : UInt32) : Schema where
  columns := [{ name := "a", columnType := .int }, { name := "b", columnType := .int }]
  recordIdCount

theorem pairSchema_wellFormed : (pairSchema 0).WellFormed :=
  ⟨by decide, by decide, rfl, by decide⟩

/-- `SET a = b, b = a`. -/
def changePlaces : List (String × Expression) := [("a", .identifier "b"), ("b", .identifier "a")]

/-- What a program on a new table returns. -/
def resultOnNew {α : Type} (x : Prog Table α) : Option α :=
  match x (Table.new (pairSchema 0)) with
  | .ok a _ => some a
  | .error _ _ => none

theorem eq_ok_of_resultOnNew {α : Type} {x : Prog Table α} {a : α} (h : resultOnNew x = some a) :
    ∃ table, x (Table.new (pairSchema 0)) = .ok a table := by
  unfold resultOnNew at h
  split at h
  · rename_i a' table hrun
    obtain rfl := Option.some.inj h
    exact ⟨table, hrun⟩
  · cases h

/-- An `UPDATE` of a table with the row `(1, 2)`, and the schema and the records before it. -/
def updatePair (assignments : List (String × Expression)) : Prog Table (Schema × List Record) := do
  let _ ← Table.insertRecord (stillEnv.now 0) [.int 1, .int 2] []
  let records ← Table.records
  let schema := (← get).schema
  let _ ← executeUpdate stillEnv assignments none
  return (schema, records)

/-- The record with two values. -/
def pairRecord (a b : Int32) : Record :=
  { id := 0, fields := [.int a, .int b], address := some ⟨1, 0⟩ }

/-- The `UPDATE` leaves what the assignments make of the record. -/
theorem updatePair_eq_ok {assignments : List (String × Expression)} {a b : Int32}
    (h : resultOnNew (updatePair assignments) = some (pairSchema 1, [pairRecord 1 2]))
    (hassign : ∀ store, assign (pairSchema 1) assignments (pairRecord 1 2) store =
      .ok (pairRecord a b) store) :
    ∃ table rows stack response table' rows' stack', Table.Run 1 table rows stack ∧
      table.schema = pairSchema 1 ∧ Table.records table = .ok [pairRecord 1 2] table ∧
      executeUpdate stillEnv assignments none table = .ok response table' ∧
      table'.Tracks rows' stack' ∧ rows'.row 0 = some [.int a, .int b] := by
  obtain ⟨last, hrun⟩ := eq_ok_of_resultOnNew h
  rw [updatePair] at hrun
  obtain ⟨record, table, hinsert, h₁⟩ := Prog.bind_eq_ok.1 hrun
  obtain ⟨records, table₁, hrecords, h₂⟩ := Prog.bind_eq_ok.1 h₁
  rw [run_get_bind] at h₂
  obtain ⟨response, table₂, hupdate, h₃⟩ := Prog.bind_eq_ok.1 h₂
  obtain ⟨heq, -⟩ := Prog.pure_eq_ok.1 h₃
  obtain ⟨hschema, rfl⟩ := Prod.mk.inj heq
  have hknown : ∀ value ∈ ([.int 1, .int 2] : List Value),
      (Table.new (pairSchema 0)).strings.toInterner.Knows value := by
    intro value hvalue
    rcases List.mem_cons.1 hvalue with rfl | hvalue
    · trivial
    · obtain rfl := List.mem_singleton.1 hvalue
      trivial
  have hnew := Table.Run.insert (.new pairSchema_wellFormed rfl) hknown hinsert
  have htracks := (hnew.tracks (by decide)).1
  -- reading the rows leaves the table as it is
  obtain rfl : table = table₁ := by
    rw [htracks.run_records] at hrecords
    injection hrecords
  obtain ⟨matched, table₃, changed, stack', hmatching, hnodup, hids, -, hassigned, htracks'⟩ :=
    executeUpdate_eq_ok stillEnv htracks hupdate
  rw [matchingRecords, hrecords] at hmatching
  cases hmatching
  obtain ⟨record', hmem, store, store', honce, -⟩ :=
    hassigned.exists_of_mem List.mem_cons_self
  rw [← hschema, hassign] at honce
  cases honce
  refine ⟨table, _, _, response, table₂, _, stack', hnew, hschema.symm, hrecords, hupdate, htracks', ?_⟩
  exact Rows.setAll_of_mem (by rwa [hids]) hmem

theorem resultOnNew_updatePair :
    resultOnNew (updatePair changePlaces) = some (pairSchema 1, [pairRecord 1 2]) ∧
      resultOnNew (updatePair changePlaces.reverse) = some (pairSchema 1, [pairRecord 1 2]) := by
  decide +kernel

theorem executeUpdate_assigns_iff_changePlaces : ∃ table rows stack response table',
    Table.Run 1 table rows stack ∧
      executeUpdate stillEnv changePlaces none table = .ok response table' ∧
      ∃ matched table₁ rows' stack', matchingRecords stillEnv none table = .ok matched table₁ ∧
        table'.Tracks rows' stack' ∧
        (∀ id, id ∉ matched.map Record.id → rows'.row id = rows.row id) ∧
        (∀ record ∈ matched, rows.row record.id = some record.fields) ∧
        ((∀ record ∈ matched, ∃ fields, rows'.row record.id = some fields ∧
            Assigned table'.strings table.schema changePlaces record fields) ↔
          ∀ record ∈ matched, ReadsOld table'.strings table.schema changePlaces record) := by
  obtain ⟨table, rows, stack, response, table', -, -, h, -, -, hrun, -⟩ :=
    updatePair_eq_ok (a := 2) (b := 2) resultOnNew_updatePair.1 fun _ => rfl
  exact ⟨table, rows, stack, response, table', h, hrun,
    executeUpdate_assigns_iff stillEnv h (by decide) (by decide) hrun⟩

/-- Two columns do not change places: both get the value of the one that is read first. -/
theorem executeUpdate_overwrites :
    (∃ table rows stack response table' rows' stack', Table.Run 1 table rows stack ∧
      table.schema = pairSchema 1 ∧ Table.records table = .ok [pairRecord 1 2] table ∧
      executeUpdate stillEnv changePlaces none table = .ok response table' ∧
      table'.Tracks rows' stack' ∧ rows'.row 0 = some [.int 2, .int 2]) ∧
    ∃ table rows stack response table' rows' stack', Table.Run 1 table rows stack ∧
      table.schema = pairSchema 1 ∧ Table.records table = .ok [pairRecord 1 2] table ∧
      executeUpdate stillEnv changePlaces.reverse none table = .ok response table' ∧
      table'.Tracks rows' stack' ∧ rows'.row 0 = some [.int 1, .int 1] :=
  ⟨updatePair_eq_ok resultOnNew_updatePair.1 fun _ => rfl,
    updatePair_eq_ok resultOnNew_updatePair.2 fun _ => rfl⟩

end Executor

end QuasarDB.Storage
