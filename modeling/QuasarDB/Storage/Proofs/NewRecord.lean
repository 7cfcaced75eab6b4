import QuasarDB.Storage.Proofs.Assignments
import QuasarDB.Storage.Proofs.Matching

set_option autoImplicit false

/-! # New records

The record that `make_record` builds for an `INSERT`: names are resolved, then the columns that are left out
get their defaults, then the values are put where the names point. -/

namespace QuasarDB.Storage

open Prog

/-! ## Names -/

/-- The column that a known name stands for. -/
def Schema.indexOf (schema : Schema) (name : String) : Nat := (schema.columnIndex name).getD 0

/-- All of the names are known. -/
def Schema.KnowsAll (schema : Schema) (names : List String) : Prop :=
  ∀ name ∈ names, ∃ i, schema.columnIndex name = some i

namespace Table

variable {schema : Schema} {names : List String}

theorem columnIndex_of_known (h : schema.KnowsAll names) {name : String} (hmem : name ∈ names) :
    schema.columnIndex name = some (schema.indexOf name) := by
  obtain ⟨i, hi⟩ := h name hmem
  rw [Schema.indexOf, hi]
  rfl

theorem resolveColumnIndices_known (h : schema.KnowsAll names) :
    resolveColumnIndices schema names = .ok (names.map schema.indexOf) := by
  unfold resolveColumnIndices
  induction names with
  | nil => rfl
  | cons name names ih =>
      obtain ⟨⟨i, hi⟩, hnames⟩ := List.forall_mem_cons.1 h
      rw [List.mapM_cons, ih hnames, List.map_cons, Schema.indexOf, hi]
      rfl

/-! ## Values -/

section UpdateColumns

variable {fields values : List Value} {indices : List Nat}

@[simp] theorem length_updateColumns :
    (updateColumns fields values indices).length = fields.length :=
  (updateColumns_keeps (P := fun _ => True) (fun _ _ => trivial) fun _ _ => trivial).1

/-- A column that is not listed keeps its value. -/
theorem updateColumns_other {i : Nat} (h : i ∉ indices) :
    (updateColumns fields values indices)[i]? = fields[i]? := by
  unfold updateColumns
  induction indices generalizing fields values with
  | nil => rfl
  | cons j indices ih =>
      obtain ⟨hne, hothers⟩ := not_or.1 (mt List.mem_cons.2 h)
      cases values with
      | nil => rfl
      | cons value values =>
          rw [List.zip_cons_cons, List.foldl_cons, ih hothers]
          exact List.getElem?_set_ne (Ne.symm hne)

/-- A column that is listed gets the value of its place in the list. -/
theorem updateColumns_listed (hnodup : indices.Nodup) {i k : Nat} {value : Value}
    (hlt : i < fields.length) (hi : indices[k]? = some i) (hvalue : values[k]? = some value) :
    (updateColumns fields values indices)[i]? = some value := by
  induction indices generalizing fields values k with
  | nil => simp at hi
  | cons j indices ih =>
      obtain ⟨hnew, hnodup⟩ := List.nodup_cons.1 hnodup
      cases values with
      | nil => simp at hvalue
      | cons v values =>
          have hstep : updateColumns fields (v :: values) (j :: indices) =
              updateColumns (fields.set j v) values indices := rfl
          rw [hstep]
          cases k with
          | zero =>
              obtain rfl := Option.some.inj hi
              obtain rfl := Option.some.inj hvalue
              rw [updateColumns_other hnew, List.getElem?_set_self hlt]
          | succ k => exact ih hnodup (by rwa [List.length_set]) hi hvalue

/-- The order of the list does not matter. -/
theorem updateColumns_perm {indices' : List Nat} {values' : List Value} (hnodup : indices.Nodup)
    (hlength : indices.length ≤ values.length)
    (h : (indices.zip values).Perm (indices'.zip values')) :
    updateColumns fields values indices = updateColumns fields values' indices' := by
  have hfirst : ((indices.zip values).map Prod.fst).Nodup := by
    rwa [List.map_fst_zip hlength]
  apply h.foldl_eq'
  intro x hx y hy fields
  by_cases hne : x.1 = y.1
  · -- a column is listed once, with one value
    rw [List.inj_on_of_nodup_map hfirst hx hy hne]
  · exact List.set_comm _ _ hne

end UpdateColumns

end Table

/-! ## Defaults -/

/-- The `DEFAULT` of a column, or `NULL`, where the text has an id. -/
def StringStore.defaultOf (store : StringStore) (column : Column) : Option Value :=
  match column.defaultType with
  | .none => some .null
  | .nullValue => some .null
  | .int => some (.int column.defaultInt)
  | .string => (store.stringToId.lookup column.defaultString).map fun id => .string ⟨id⟩

namespace Table

variable {store : StringStore} {provided provided' : List Nat} {columns : List (Column × Nat)}

theorem run_defaultValue {column : Column} (h : column.hasDefault = true) (store : StringStore) :
    ∃ value store', column.defaultValue store = .ok value store' ∧ store.Settles store' ∧
      ∀ later, store'.Settles later → later.defaultOf column = some value := by
  unfold Column.defaultValue StringStore.defaultOf
  cases htype : column.defaultType with
  | none => simp [Column.hasDefault, htype] at h
  | nullValue => exact ⟨.null, store, rfl, .refl, fun _ _ => rfl⟩
  | int => exact ⟨.int column.defaultInt, store, rfl, .refl, fun _ _ => rfl⟩
  | string =>
      obtain ⟨id, hrun, hid⟩ := StringStore.run_intern_remember column.defaultString store
      refine ⟨_, _, hrun, StringStore.settles_remember _, fun later hlater => ?_⟩
      simp only [hlater.ids _ _ hid]
      rfl

/-- The columns that are left out have their defaults, the others `NULL` for now. -/
theorem run_applyDefaults (provided : List Nat) (columns : List (Column × Nat)) (store : StringStore) :
    ∃ values store', applyDefaults provided columns store = .ok values store' ∧
      store.Settles store' ∧ values.length = columns.length ∧
      ∀ later, store'.Settles later → ∀ (k : Nat) column i, columns[k]? = some (column, i) →
        i ∉ provided → values[k]? = later.defaultOf column := by
  induction columns generalizing store with
  | nil => exact ⟨[], store, rfl, .refl, rfl, fun _ _ k _ _ hk => by simp at hk⟩
  | cons c columns ih =>
      obtain ⟨column, i⟩ := c
      have hfirst : ∃ value store₁, (if column.hasDefault && i ∉ provided then column.defaultValue
            else pure .null : Prog StringStore Value) store = .ok value store₁ ∧
          store.Settles store₁ ∧ ∀ later, store₁.Settles later → i ∉ provided →
            later.defaultOf column = some value := by
        by_cases hdefault : column.hasDefault && i ∉ provided
        · rw [if_pos hdefault]
          rw [Bool.and_eq_true] at hdefault
          obtain ⟨value, store₁, hrun, hsettles, hvalue⟩ := run_defaultValue hdefault.1 store
          exact ⟨value, store₁, hrun, hsettles, fun later hlater _ => hvalue later hlater⟩
        · rw [if_neg hdefault]
          refine ⟨.null, store, rfl, .refl, fun later _ hi => ?_⟩
          have hnone : column.defaultType = .none := by
            simpa [hi, Column.hasDefault] using hdefault
          rw [StringStore.defaultOf, hnone]
      obtain ⟨value, store₁, hrun, hsettles, hvalue⟩ := hfirst
      obtain ⟨values, store₂, hrest, hsettles', hlength, hvalues⟩ := ih store₁
      refine ⟨value :: values, store₂, ?_, hsettles.trans hsettles', by simp [hlength], ?_⟩
      · have hstep : applyDefaults provided ((column, i) :: columns) =
            (if column.hasDefault && i ∉ provided then column.defaultValue else pure .null) >>=
              fun value => do return value :: (← applyDefaults provided columns) := by
          rw [applyDefaults]
          split <;> rfl
        rw [hstep, bind_ok hrun, bind_ok hrest]
        rfl
      · intro later hlater k column' j hk hj
        cases k with
        | zero =>
            cases hk
            exact (hvalue later (hsettles'.trans hlater) hj).symm
        | succ k => exact hvalues later hlater k column' j hk hj

theorem applyDefaults_congr (h : ∀ i, i ∈ provided ↔ i ∈ provided') :
    applyDefaults provided columns = applyDefaults provided' columns := by
  induction columns with
  | nil => rfl
  | cons c columns ih =>
      obtain ⟨column, i⟩ := c
      simp only [applyDefaults, ih, h i]

/-! ## The record -/

section MakeRecord

variable {table : Table} {columnNames : List String} {values : List Value}

theorem nodup_indexOf {schema : Schema} (hnodup : columnNames.Nodup)
    (hknown : schema.KnowsAll columnNames) : (columnNames.map schema.indexOf).Nodup := by
  apply List.Nodup.map_on _ hnodup
  intro name hname other hother heq
  have hindex := columnIndex_of_known hknown hname
  rw [heq] at hindex
  exact Schema.columnIndex_inj hindex (columnIndex_of_known hknown hother)

/-- A column is listed if one of the names stands for it. -/
theorem mem_indexOf_iff {schema : Schema} (hknown : schema.KnowsAll columnNames) {i : Nat} :
    i ∈ columnNames.map schema.indexOf ↔
      ∃ name ∈ columnNames, schema.columnIndex name = some i := by
  rw [List.mem_map]
  constructor
  · rintro ⟨name, hname, rfl⟩
    exact ⟨name, hname, columnIndex_of_known hknown hname⟩
  · rintro ⟨name, hname, hindex⟩
    exact ⟨name, hname, by rw [Schema.indexOf, hindex, Option.getD_some]⟩

theorem run_makeRecord (recordId : UInt32) (hsome : columnNames ≠ [])
    (hknown : table.schema.KnowsAll columnNames) (hlength : values.length = columnNames.length)
    {defaults : List Value} {strings : StringStore}
    (hdefaults : applyDefaults (columnNames.map table.schema.indexOf) table.schema.columns.zipIdx
      table.strings = .ok defaults strings) :
    makeRecord recordId values columnNames table = .ok
      { id := recordId
        fields := updateColumns defaults values (columnNames.map table.schema.indexOf) }
      { table with strings } := by
  obtain ⟨name, hname⟩ := List.exists_mem_of_ne_nil _ hsome
  obtain ⟨i, hi⟩ := hknown name hname
  have hlt : i < table.schema.size := (List.findIdx?_eq_some_iff_findIdx_eq.1 hi).1
  have hsize : table.schema.size ≠ 0 := by omega
  have hsame : (values.length != columnNames.length) = false := by simp [hlength]
  rw [makeRecord, run_get_bind, if_neg hsome, hsame, throwIf_false, run_pure_bind, resolveColumnIndices_known hknown]
  rw [show (Prog.ofExcept (.ok (columnNames.map table.schema.indexOf)) : Prog Table (List Nat)) =
    pure _ from rfl, run_pure_bind, Record.ofCount, if_neg hsize, run_pure_bind,
    bind_ok (run_onStrings hdefaults)]
  rfl

end MakeRecord

/-- `make_record` gives every listed column its value and every other one its default, or `NULL`; the order
    of the list does not matter. -/
theorem makeRecord_builds (table : Table) (recordId : UInt32) {columnNames : List String}
    {values : List Value} (hsome : columnNames ≠ []) (hnodup : columnNames.Nodup)
    (hknown : table.schema.KnowsAll columnNames) (hlength : values.length = columnNames.length) :
    ∃ fields strings, makeRecord recordId values columnNames table =
        .ok { id := recordId, fields } { table with strings } ∧
      table.strings.Settles strings ∧ fields.length = table.schema.size ∧
      (∀ (k : Nat) name value i, columnNames[k]? = some name → values[k]? = some value →
        table.schema.columnIndex name = some i → fields[i]? = some value) ∧
      (∀ (i : Nat) column, table.schema.columns[i]? = some column →
        (∀ name ∈ columnNames, table.schema.columnIndex name ≠ some i) →
        fields[i]? = strings.defaultOf column) ∧
      ∀ columnNames' values', values'.length = columnNames'.length →
        (columnNames'.zip values').Perm (columnNames.zip values) →
        makeRecord recordId values' columnNames' table =
          makeRecord recordId values columnNames table := by
  obtain ⟨defaults, strings, hdefaults, hsettles, hlength', hvalues⟩ := run_applyDefaults
    (columnNames.map table.schema.indexOf) table.schema.columns.zipIdx table.strings
  have hsize : defaults.length = table.schema.size := by
    rw [hlength', List.length_zipIdx]
    rfl
  have hindices := nodup_indexOf hnodup hknown
  have hmake := run_makeRecord recordId hsome hknown hlength hdefaults
  refine ⟨_, strings, hmake, hsettles, ?_, ?_, ?_, ?_⟩
  · rw [length_updateColumns, hsize]
  · intro k name value i hname hvalue hindex
    have hlt : i < table.schema.size := (List.findIdx?_eq_some_iff_findIdx_eq.1 hindex).1
    refine updateColumns_listed hindices (by rwa [hsize]) ?_ hvalue
    rw [List.getElem?_map, hname, Option.map_some, Schema.indexOf, hindex, Option.getD_some]
  · intro i column hcolumn hother
    have hfree : i ∉ columnNames.map table.schema.indexOf := by
      rw [mem_indexOf_iff hknown]
      rintro ⟨name, hname, hindex⟩
      exact hother name hname hindex
    rw [updateColumns_other hfree]
    refine hvalues strings .refl i column i ?_ hfree
    rw [List.getElem?_zipIdx, hcolumn]
    simp
  · intro columnNames' values' hlength₂ hperm
    have hnames : columnNames'.Perm columnNames := by
      have hfirst := hperm.map Prod.fst
      rwa [List.map_fst_zip hlength₂.ge, List.map_fst_zip hlength.ge] at hfirst
    have hsome' : columnNames' ≠ [] := by
      rintro rfl
      exact hsome hnames.nil_eq.symm
    have hknown' : table.schema.KnowsAll columnNames' := fun name hname =>
      hknown name (hnames.subset hname)
    have hmem : ∀ i, i ∈ columnNames'.map table.schema.indexOf ↔
        i ∈ columnNames.map table.schema.indexOf := fun i => (hnames.map _).mem_iff
    have hindexed : ((columnNames'.map table.schema.indexOf).zip values').Perm
        ((columnNames.map table.schema.indexOf).zip values) := by
      rw [List.zip_map_left, List.zip_map_left]
      exact hperm.map _
    have hmake' := run_makeRecord recordId hsome' hknown' hlength₂
      ((congrFun (applyDefaults_congr hmem) _).trans hdefaults)
    rw [hmake', hmake, updateColumns_perm
      (nodup_indexOf (hnames.nodup_iff.2 hnodup) hknown') (by simp [hlength₂]) hindexed]

/-- A column with a `DEFAULT`, and one without. -/
def defaultSchema : Schema where
  columns := [{ name := "a", columnType := .int, defaultType := .int, defaultInt := 7 },
    { name := "b", columnType := .int }]

theorem makeRecord_builds_default :
    ∃ fields strings, makeRecord 0 [.null] ["b"] (Table.new defaultSchema) =
        .ok { id := 0, fields } { Table.new defaultSchema with strings } ∧
      fields[1]? = some .null ∧ fields[0]? = some (.int 7) := by
  have hknown : defaultSchema.KnowsAll ["b"] := by
    intro name hname
    obtain rfl := List.mem_singleton.1 hname
    exact ⟨1, rfl⟩
  obtain ⟨fields, strings, hrun, -, -, hlisted, hother, -⟩ :=
    makeRecord_builds (Table.new defaultSchema) 0 (List.cons_ne_nil "b" []) (by decide) hknown
      (show [Value.null].length = 1 from rfl)
  refine ⟨fields, strings, hrun, hlisted 0 "b" .null 1 rfl rfl rfl, ?_⟩
  refine hother 0 _ rfl fun name hname => ?_
  obtain rfl := List.mem_singleton.1 hname
  decide

end Table

end QuasarDB.Storage
