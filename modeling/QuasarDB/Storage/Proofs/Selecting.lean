import QuasarDB.Storage.Proofs.UnknownColumns

set_option autoImplicit false

/-! # A `SELECT` throws exceptions at most

Rows are read within their fields, and no sum of less than 2^32 integers overflows, whatever the items of the
`SELECT` are. -/

namespace QuasarDB.Storage

open Prog Server Core Executor

/-! ## Adding up -/

section AddRecords

variable {σ : Type} {R : σ → σ → Prop} [IsPreorder σ R] {s : σ}

/-- One more value leaves the sum of so many in range. -/
theorem addValue_along (function : AggregateFunction) (column : String) (value : Value) {sum count : Int}
    {n : Nat} (hn : n + 1 < 2 ^ 32) (hcount : 0 ≤ count ∧ count ≤ n)
    (hsum : -(2 ^ 31 * n) ≤ sum ∧ sum ≤ 2 ^ 31 * n) :
    Along Throws R (addValue function column value sum count) s fun total _ =>
      (0 ≤ total.2 ∧ total.2 ≤ n + 1) ∧ -(2 ^ 31 * (n + 1)) ≤ total.1 ∧ total.1 ≤ 2 ^ 31 * (n + 1) := by
  unfold addValue
  by_cases hfunction : function = .count
  · rw [if_pos hfunction, addInt64_eq (by split <;> omega) (by split <;> omega), pure_bind]
    refine Along.pure ⟨?_, by omega⟩
    dsimp only
    split <;> omega
  · rw [if_neg hfunction]
    cases value with
    | null => exact Along.pure ⟨by omega, by omega⟩
    | string id => exact Along.throw _
    | int m =>
        have hleast := m.le_toInt
        have hmost := m.toInt_lt
        dsimp only
        rw [addInt64_eq (by omega) (by omega), pure_bind, addInt64_eq (by omega) (by omega), pure_bind]
        exact Along.pure ⟨by omega, by omega⟩

theorem addRecords_along (function : AggregateFunction) (column : String) {i : Nat}
    {records : List Record} (hfields : ∀ record ∈ records, i < record.fields.length) {sum count : Int}
    {n : Nat} (hn : n + records.length < 2 ^ 32) (hcount : 0 ≤ count ∧ count ≤ n)
    (hsum : -(2 ^ 31 * n) ≤ sum ∧ sum ≤ 2 ^ 31 * n) :
    Along Throws R (addRecords function column i records sum count) s fun _ _ => True := by
  induction records generalizing s sum count n with
  | nil => exact Along.pure trivial
  | cons record records ih =>
      obtain ⟨hlt, hothers⟩ := List.forall_mem_cons.1 hfields
      rw [List.length_cons] at hn
      rw [addRecords, List.getElem?_eq_getElem hlt]
      refine (addValue_along function column _ (by omega) hcount hsum).bind fun total t _ htotal => ?_
      refine ih (n := n + 1) hothers (by omega) ?_ ?_
      · push_cast
        exact htotal.1
      · push_cast
        exact htotal.2

end AddRecords

/-! ## Selecting -/

variable {table table' : Table} {rows : Rows} {records : List Record}

/-- The records are rows of the table. -/
def AreRecords (table : Table) (rows : Rows) (records : List Record) : Prop :=
  ∀ record ∈ records, table.IsRecord rows record

theorem AreRecords.grows (h : AreRecords table rows records) (hgrows : table.Grows table') :
    AreRecords table' rows records := by
  obtain ⟨strings, -, rfl⟩ := hgrows
  exact fun record hrecord => ⟨(h record hrecord).row, (h record hrecord).address⟩

theorem selectRecords_along (h : table.Represents rows) (hrecords : AreRecords table rows records)
    (selectAll : Bool) (items : List SelectItem) :
    Along Throws Table.Grows (selectRecords selectAll items records) table fun _ _ => True := by
  induction records generalizing table with
  | nil => exact Along.pure trivial
  | cons record records ih =>
      obtain ⟨hrecord, hothers⟩ := List.forall_mem_cons.1 hrecords
      have hready : Ready table.strings table.schema record :=
        ⟨h.strings, (h.sound.allowed _ _ hrecord.row).length, h.sound.known _ _ hrecord.row⟩
      have hrow : Along Throws StringStore.Grows
          (if selectAll then selectColumns record table.schema.columns.zipIdx (.object [])
            else selectFields table.schema record items (.object [])) table.strings fun _ _ => True := by
        refine Along.ite (fun _ => ?_) fun _ => selectFields_along hready items _
        have hcolumns : ∀ c ∈ table.schema.columns.zipIdx, c.2 < record.fields.length := by
          intro c hc
          rw [hready.fields]
          exact (List.mem_zipIdx' hc).1
        obtain ⟨row, hrow⟩ := run_selectColumns hready _ hcolumns (.object [])
        exact Post.ok hrow ⟨refl_of StringStore.Grows _, trivial⟩
      refine Along.get_bind ((Table.onStrings_along hrow).bind fun row t hgrows _ => ?_)
      exact (ih (hgrows.represents h) (AreRecords.grows hothers hgrows)).bind fun _ _ _ _ =>
        Along.pure trivial

theorem aggregateItems_along (quotient : Quotient) (h : table.Represents rows)
    (hrecords : AreRecords table rows records) (hlength : records.length < 2 ^ 32)
    (items : List SelectItem) (row : Json) :
    Along Throws Table.Grows (aggregateItems quotient records items row) table fun _ _ => True := by
  induction items generalizing table row with
  | nil => exact Along.pure trivial
  | cons item items ih =>
      rw [aggregateItems]
      split
      · refine Along.get_bind ?_
        split
        · exact Along.throw _
        · rename_i i hindex
          refine (addRecords_along _ _ (fun record hrecord => ?_) (n := 0) (by omega) (by omega)
            (by omega)).bind fun total t hgrows _ => ?_
          · rw [(h.sound.allowed _ _ (hrecords record hrecord).row).length]
            exact (List.findIdx?_eq_some_iff_findIdx_eq.1 hindex).1
          · exact ih (hgrows.represents h) (hrecords.grows hgrows) _
      · exact Along.throw _

/-- The records that a statement looks for are less than 2^32 rows of the table. -/
theorem matchingRecords_are (env : ExecutorEnv) (h : table.Represents rows)
    (whereClause : Option Condition) :
    Along Throws Table.Grows (matchingRecords env whereClause) table fun records table' =>
      records.length < 2 ^ 32 ∧ AreRecords table' rows records ∧ (records.map Record.id).Nodup := by
  refine (matchingRecords_along env h whereClause).mono fun records t hgrows hsublist => ?_
  refine ⟨?_, fun record hrecord => ?_, ?_⟩
  · have hcount := hsublist.length_le
    rw [Table.recordsOf, List.length_map] at hcount
    have hlist : rows.list.length ≤ rows.count := by
      rw [Rows.list, Rows.ids]
      exact (List.length_filterMap_le _ _).trans (by simp)
    have := h.count_lt
    omega
  · rw [← (hgrows.represents h).mem_recordsOf, hgrows.recordsOf]
    exact hsublist.subset hrecord
  · exact h.nodup_ids_recordsOf.sublist (hsublist.map Record.id)

theorem selectRows_along (env : ExecutorEnv) (quotient : Quotient) (h : table.Represents rows)
    (selectAll : Bool) (items : List SelectItem) (whereClause : Option Condition) :
    Along Throws Table.Grows (selectRows env quotient selectAll items whereClause) table fun result _ =>
      ∃ rows, result = .array rows := by
  have hmatching := matchingRecords_are env h whereClause
  rw [selectRows]
  refine Along.ite (fun _ => ?_) fun _ => ?_
  · rw [aggregateSelect, bind_assoc]
    refine hmatching.bind fun records t hgrows hfound => ?_
    obtain ⟨hlength, hrecords, -⟩ := hfound
    refine (aggregateItems_along quotient (hgrows.represents h) hrecords hlength items _).bind
      fun row _ _ _ => Along.pure ⟨_, rfl⟩
  · refine hmatching.bind fun records t hgrows hfound => ?_
    obtain ⟨-, hrecords, -⟩ := hfound
    exact (selectRecords_along (hgrows.represents h) hrecords selectAll items).bind fun rows _ _ _ =>
      Along.pure ⟨rows, rfl⟩

end QuasarDB.Storage
