import QuasarDB.Storage.Proofs.Aggregates
import QuasarDB.Storage.Proofs.Matching

set_option autoImplicit false

/-! # Columns that a table does not have

The name of a column is looked up where its value is needed. A statement with an unknown column is rejected
if and only if it gets so far: some row is looked at, or matches, or the column is that of an aggregate. -/

namespace QuasarDB.Storage

open Prog Server Core

/-! ## What was evaluated is known -/

section Known

variable {schema : Schema} {store store' : StringStore} {record record' : Record} {value : Value}
  {regexMatch : RegexMatch} {b : SqlBool}

theorem known_of_append {left right : List String}
    (hleft : ∀ name ∈ left, schema.columnIndex name ≠ none)
    (hright : ∀ name ∈ right, schema.columnIndex name ≠ none) :
    ∀ name ∈ left ++ right, schema.columnIndex name ≠ none :=
  List.forall_mem_append.2 ⟨hleft, hright⟩

theorem expressionValue_known {expression : Expression}
    (h : expressionValue expression schema record store = .ok value store') :
    ∀ name ∈ expressionColumns expression, schema.columnIndex name ≠ none := by
  intro name hmem
  cases expression with
  | literal literal => cases hmem
  | aggregate function column => cases h
  | identifier column =>
      obtain rfl := List.mem_singleton.1 hmem
      intro hnone
      simp only [expressionValue, hnone] at h
      cases h

/-- A condition that has a value mentions known columns only, as all of it is evaluated. -/
theorem evaluateCondition_known {condition : Condition}
    (h : evaluateCondition regexMatch schema record condition store = .ok b store') :
    ∀ name ∈ conditionColumns condition, schema.columnIndex name ≠ none := by
  induction condition generalizing store store' b with
  | comparison left op right =>
      obtain ⟨l, store₁, hl, h₁⟩ := Prog.bind_eq_ok.1 h
      obtain ⟨r, store₂, hr, -⟩ := Prog.bind_eq_ok.1 h₁
      exact known_of_append (expressionValue_known hl) (expressionValue_known hr)
  | between value lower upper =>
      obtain ⟨v, store₁, hv, h₁⟩ := Prog.bind_eq_ok.1 h
      obtain ⟨l, store₂, hl, h₂⟩ := Prog.bind_eq_ok.1 h₁
      obtain ⟨aboveLower, store₃, -, h₃⟩ := Prog.bind_eq_ok.1 h₂
      obtain ⟨u, store₄, hu, -⟩ := Prog.bind_eq_ok.1 h₃
      exact known_of_append (expressionValue_known hv)
        (known_of_append (expressionValue_known hl) (expressionValue_known hu))
  | like value pattern =>
      obtain ⟨v, store₁, hv, -⟩ := Prog.bind_eq_ok.1 h
      exact expressionValue_known hv
  | and left right ihl ihr =>
      obtain ⟨bl, store₁, hl, h₁⟩ := Prog.bind_eq_ok.1 h
      obtain ⟨br, store₂, hr, -⟩ := Prog.bind_eq_ok.1 h₁
      exact known_of_append (ihl hl) (ihr hr)
  | or left right ihl ihr =>
      obtain ⟨bl, store₁, hl, h₁⟩ := Prog.bind_eq_ok.1 h
      obtain ⟨br, store₂, hr, -⟩ := Prog.bind_eq_ok.1 h₁
      exact known_of_append (ihl hl) (ihr hr)

theorem truth_known {whereClause : Option Condition}
    (h : truth regexMatch schema store record whereClause = some b) :
    ∀ name ∈ whereColumns whereClause, schema.columnIndex name ≠ none := by
  cases whereClause with
  | none =>
      intro name hmem
      cases hmem
  | some condition =>
      obtain ⟨store', hrun⟩ := result_eq_some.1 h
      exact evaluateCondition_known hrun

theorem matching_known {records : List Record} {whereClause : Option Condition}
    (h : matching regexMatch schema store records whereClause ≠ []) :
    ∀ name ∈ whereColumns whereClause, schema.columnIndex name ≠ none := by
  obtain ⟨record, hrecord⟩ := List.exists_mem_of_ne_nil _ h
  exact truth_known (of_decide_eq_true (List.mem_filter.1 hrecord).2)

theorem assign_columns_known {assignments : List (String × Expression)}
    (h : Executor.assign schema assignments record store = .ok record' store') :
    ∀ name ∈ assignmentColumns assignments, schema.columnIndex name ≠ none := by
  induction assignments generalizing record store with
  | nil =>
      intro name hmem
      cases hmem
  | cons a assignments ih =>
      obtain ⟨index, value, store₁, hindex, hvalue, h₁⟩ := assign_cons_eq_ok h
      rw [assignmentColumns, List.flatMap_cons, List.cons_append]
      intro name hmem
      rcases List.mem_cons.1 hmem with rfl | hmem
      · rw [hindex]
        exact Option.some_ne_none index
      · exact known_of_append (expressionValue_known hvalue) (ih h₁) name hmem

theorem selectFields_known {items : List SelectItem} {row row' : Json}
    (h : Executor.selectFields schema record items row store = .ok row' store') :
    ∀ name ∈ itemColumns items, schema.columnIndex name ≠ none := by
  induction items generalizing row store with
  | nil =>
      intro name hmem
      cases hmem
  | cons item items ih =>
      rw [Executor.selectFields] at h
      rw [itemColumns, List.flatMap_cons]
      cases hexpr : item.expr with
      | literal literal =>
          rw [hexpr] at h
          cases h
      | aggregate function column =>
          rw [hexpr] at h
          cases h
      | identifier column =>
          simp only [hexpr] at h
          obtain ⟨value, store₁, hvalue, h₁⟩ := Prog.bind_eq_ok.1 h
          obtain ⟨json, store₂, -, h₂⟩ := Prog.bind_eq_ok.1 h₁
          exact known_of_append (expressionValue_known hvalue) (ih h₂)

end Known

/-! ## Rows and aggregates that only throw exceptions -/

section Stops

variable {schema : Schema} {store : StringStore} {record : Record}

theorem jsonValue_along {value : Value} (h : store.toInterner.Knows value) :
    Along Throws StringStore.Grows (jsonValue value) store fun _ store' => store' = store :=
  Post.ok (run_jsonValue h) ⟨refl_of StringStore.Grows store, rfl⟩

/-- Every column of a record can be shown. -/
theorem run_selectColumns (hready : Ready store schema record) (columns : List (Column × Nat))
    (hcolumns : ∀ c ∈ columns, c.2 < record.fields.length) (row : Json) :
    ∃ row', Executor.selectColumns record columns row store = .ok row' store := by
  induction columns generalizing row with
  | nil => exact ⟨row, rfl⟩
  | cons c columns ih =>
      obtain ⟨hlt, hothers⟩ := List.forall_mem_cons.1 hcolumns
      have hvalue := List.getElem?_eq_getElem hlt
      have hjson := run_jsonValue (hready.known _ (List.getElem_mem hlt))
      obtain ⟨row', hrun⟩ := ih hothers
        (row.set c.1.name (store.toInterner.json record.fields[c.2]))
      refine ⟨row', ?_⟩
      rw [Executor.selectColumns, hvalue]
      exact (bind_ok hjson).trans hrun

theorem selectFields_along (hready : Ready store schema record) (items : List SelectItem) (row : Json) :
    Along Throws StringStore.Grows (Executor.selectFields schema record items row) store
      fun _ _ => True := by
  induction items generalizing row store with
  | nil => exact Along.pure trivial
  | cons item items ih =>
      rw [Executor.selectFields]
      split
      · refine (expressionValue_along _ hready.closed hready.fields hready.known).bind
          fun value store₁ hgrows hknows => ?_
        refine (jsonValue_along hknows).bind fun json store₂ _ hsame => ?_
        rw [hsame]
        exact ih (hready.grows hgrows) _
      · exact Along.throw _

end Stops

namespace Executor

variable {table : Table} {rows : Rows} {records : List Record} {column : String} {i : Nat}

/-- A `SELECT` of all columns shows every record. -/
theorem run_selectRecords_all (h : Matched table records) (hclosed : table.strings.Closed)
    (items : List SelectItem) :
    ∃ result, selectRecords true items records table = .ok result table := by
  have hready : ∀ record ∈ records, Ready table.strings table.schema record := fun record hrecord =>
    ⟨hclosed, h.fields record hrecord, h.known record hrecord⟩
  clear h
  induction records with
  | nil => exact ⟨[], rfl⟩
  | cons record records ih =>
      obtain ⟨hfirst, hothers⟩ := List.forall_mem_cons.1 hready
      obtain ⟨result, hrun⟩ := ih hothers
      have hcolumns : ∀ c ∈ table.schema.columns.zipIdx, c.2 < record.fields.length := by
        intro c hc
        rw [hfirst.fields]
        exact (List.mem_zipIdx' hc).1
      obtain ⟨row, hrow⟩ := run_selectColumns hfirst _ hcolumns (.object [])
      refine ⟨row :: result, ?_⟩
      rw [selectRecords, run_get_bind]
      simp only [if_true]
      rw [bind_ok (Table.run_onStrings hrow), bind_ok hrun]
      rfl

/-- The first record is enough for an unknown column to be noticed. -/
theorem selectRecords_rejects {items : List SelectItem} {record : Record}
    (hready : Ready table.strings table.schema record)
    (hunknown : MentionsUnknown table.schema (itemColumns items)) :
    ∃ what t, selectRecords false items (record :: records) table = .error (.exception what) t := by
  obtain ⟨name, hmem, hname⟩ := hunknown
  rw [selectRecords, run_get_bind]
  simp only [Bool.false_eq_true, if_false]
  cases hrun : selectFields table.schema record items (.object []) table.strings with
  | ok row store => exact absurd hname (selectFields_known hrun name hmem)
  | error e store =>
      obtain ⟨⟨what, rfl⟩, -⟩ := (selectFields_along hready items (.object [])).of_error hrun
      have hon : Table.onStrings (selectFields table.schema record items (.object [])) table =
          .error (.exception what) { table with strings := store } := by
        rw [Table.onStrings, run_on, hrun]
      exact ⟨what, _, bind_error hon⟩

theorem assignAll_rejects {assignments : List (String × Expression)} {record : Record}
    (hready : Ready table.strings table.schema record)
    (hunknown : MentionsUnknown table.schema (assignmentColumns assignments)) :
    ∃ what t, assignAll assignments (record :: records) table = .error (.exception what) t := by
  obtain ⟨name, hmem, hname⟩ := hunknown
  rw [assignAll, run_get_bind]
  cases hrun : assign table.schema assignments record table.strings with
  | ok record' store => exact absurd hname (assign_columns_known hrun name hmem)
  | error e store =>
      obtain ⟨⟨what, rfl⟩, -⟩ :=
        (assign_along assignments hready.closed hready.fields hready.known).of_error hrun
      have hon : Table.onStrings (assign table.schema assignments record) table =
          .error (.exception what) { table with strings := store } := by
        rw [Table.onStrings, run_on, hrun]
      exact ⟨what, _, bind_error hon⟩

/-! ## Aggregates -/

/-- Strings are not added up: the first one is an exception. -/
theorem addRecords_strings {σ : Type} {function : AggregateFunction} (hfunction : function ≠ .count)
    (hfields : ∀ record ∈ records, i < record.fields.length)
    (hint : ∀ value ∈ valuesAt i records, value.isInt = false) (sum count : Int) (s : σ) :
    addRecords function column i records sum count s = .ok (sum, count) s ∨
      ∃ what, addRecords function column i records sum count s = .error (.exception what) s := by
  induction records with
  | nil => exact Or.inl rfl
  | cons record records ih =>
      obtain ⟨hlt, hothers⟩ := List.forall_mem_cons.1 hfields
      have hvalue := List.getElem?_eq_getElem hlt
      generalize record.fields[i] = value at hvalue
      rw [valuesAt_cons hvalue] at hint
      obtain ⟨hfirst, hrest⟩ := List.forall_mem_cons.1 hint
      rw [addRecords, hvalue]
      dsimp only
      unfold addValue
      rw [if_neg hfunction]
      cases value with
      | null => exact ih hothers hrest
      | int n => cases hfirst
      | string id => exact Or.inr ⟨_, rfl⟩

/-- Adding up a column returns or throws an exception. -/
theorem Matched.addRecords_stops (h : Matched table records) (function : AggregateFunction)
    (hindex : table.schema.columnIndex column = some i) :
    (∃ total, addRecords function column i records 0 0 table = .ok total table) ∨
      ∃ what, addRecords function column i records 0 0 table = .error (.exception what) table := by
  have hlt := (List.findIdx?_eq_some_iff_findIdx_eq.1 hindex).1
  have hcolumn := List.getElem?_eq_getElem hlt
  by_cases hcount : function = .count
  · obtain ⟨sum, count, hadd, -⟩ := h.run_addRecords (fun _ _ => (0, 0)) hindex
      fun hne => absurd hcount hne
    exact Or.inl ⟨_, hadd⟩
  · cases hint : table.schema.columns[i].isInt with
    | true =>
        obtain ⟨sum, count, hadd, -⟩ := h.run_addRecords (fun _ _ => (0, 0)) hindex
          fun _ => h.ints hcolumn hint
        exact Or.inl ⟨_, hadd⟩
    | false =>
        have hstrings : ∀ value ∈ valuesAt i records, value.isInt = false := by
          intro value hvalue
          obtain ⟨record, hrecord, hfield⟩ := List.mem_filterMap.1 hvalue
          cases value with
          | null => rfl
          | string id => rfl
          | int n =>
              have htype := Table.typed_of_allows (h.allowed record hrecord) i _ _ hcolumn hfield
                (by simp)
              cases hcolumnType : table.schema.columns[i].columnType with
              | int => simp [Column.isInt, hcolumnType] at hint
              | string => simp [IndexSet.HasType, hcolumnType, Value.isString] at htype
        rcases addRecords_strings hcount (h.lt_length hindex) hstrings 0 0 table with hok | herror
        · exact Or.inl ⟨_, hok⟩
        · exact Or.inr herror

/-- An item that no aggregate `SELECT` takes. -/
def BadItem (schema : Schema) (item : SelectItem) : Prop :=
  ∀ function column, item.expr = .aggregate function column → schema.columnIndex column = none

/-- Such an item is noticed, whatever the records are. -/
theorem aggregateItems_rejects (quotient : Quotient) (h : Matched table records)
    {items : List SelectItem} (hbad : ∃ item ∈ items, BadItem table.schema item) (row : Json) :
    ∃ what t, aggregateItems quotient records items row table = .error (.exception what) t := by
  induction items generalizing row with
  | nil =>
      obtain ⟨item, hmem, -⟩ := hbad
      cases hmem
  | cons item items ih =>
      rw [aggregateItems]
      cases hexpr : item.expr with
      | identifier name => exact ⟨_, _, rfl⟩
      | literal literal => exact ⟨_, _, rfl⟩
      | aggregate function column =>
          dsimp only
          rw [run_get_bind]
          cases hindex : table.schema.columnIndex column with
          | none => exact ⟨_, _, rfl⟩
          | some i =>
              have hrest : ∃ item ∈ items, BadItem table.schema item := by
                obtain ⟨other, hmem, hother⟩ := hbad
                rcases List.mem_cons.1 hmem with rfl | hmem
                · rw [hother function column hexpr] at hindex
                  cases hindex
                · exact ⟨other, hmem, hother⟩
              rcases h.addRecords_stops function hindex with ⟨total, hadd⟩ | ⟨what, hadd⟩
              · obtain ⟨what, t, herror⟩ := ih hrest
                  (row.set (resultName item function column)
                    (aggregateValue quotient function total.1 total.2))
                exact ⟨what, t, (bind_ok hadd).trans herror⟩
              · exact ⟨what, table, bind_error hadd⟩

/-! ## Statements -/

variable {stack : List Entry} (env : ExecutorEnv) (quotient : Quotient) {whereClause : Option Condition}

/-- The statement is answered with an error. -/
def Rejected (x : Prog Table Response) (table : Table) : Prop :=
  ∃ what t, x table = .error (.exception what) t

theorem not_rejected_of_ok {x : Prog Table Response} {response : Response} {t : Table}
    (h : x table = .ok response t) : ¬ Rejected x table := by
  rintro ⟨what, t', herror⟩
  rw [h] at herror
  cases herror

/-- The `WHERE` of the statement raises an exception. -/
abbrev Raises (table : Table) (rows : Rows) (whereClause : Option Condition) : Prop :=
  WhereRaises env.regexMatch table.schema table.strings (table.recordsOf rows) whereClause

/-- The records that the statement is about. -/
abbrev matchingOf (table : Table) (rows : Rows) (whereClause : Option Condition) : List Record :=
  matching env.regexMatch table.schema table.strings (table.recordsOf rows) whereClause

theorem run_matchingOf (h : table.Represents rows) (whereClause : Option Condition) :
    (Raises env table rows whereClause →
      ∃ what t, matchingRecords env whereClause table = .error (.exception what) t) ∧
    (¬ Raises env table rows whereClause →
      ∃ t, matchingRecords env whereClause table = .ok (matchingOf env table rows whereClause) t) :=
  run_matchingRecords env h whereClause

/-- The records that match, where nothing is raised. -/
theorem matched_ready (h : table.Represents rows) {t : Table}
    (hrun : matchingRecords env whereClause table = .ok records t) :
    ∀ record ∈ records, Ready t.strings t.schema record := by
  obtain ⟨hgrows, -⟩ := (matchingRecords_along env h whereClause).of_ok hrun
  obtain ⟨-, hmatched⟩ := matched_of_run h hrun
  intro record hrecord
  exact ⟨(hgrows.represents h).strings, hmatched.fields record hrecord, hmatched.known record hrecord⟩

/-- A row that matches has been looked at, so the unknown column is another one. -/
theorem unknown_elsewhere {columns : List String}
    (hunknown : MentionsUnknown table.schema (columns ++ whereColumns whereClause))
    (hmatch : matchingOf env table rows whereClause ≠ []) : MentionsUnknown table.schema columns := by
  obtain ⟨name, hmem, hname⟩ := hunknown
  rcases List.mem_append.1 hmem with hmem | hmem
  · exact ⟨name, hmem, hname⟩
  · exact absurd hname (matching_known hmatch name hmem)

theorem executeDelete_rejected_iff (h : table.Represents rows)
    (hunknown : MentionsUnknown table.schema (whereColumns whereClause)) :
    Rejected (executeDelete env whereClause) table ↔ Raises env table rows whereClause := by
  obtain ⟨hraises, hreturns⟩ := run_matchingOf env h whereClause
  by_cases hraise : Raises env table rows whereClause
  · obtain ⟨what, t, hrun⟩ := hraises hraise
    exact iff_of_true ⟨what, t, bind_error hrun⟩ hraise
  · obtain ⟨t, hrun⟩ := hreturns hraise
    have hnone : matchingOf env table rows whereClause = [] := by
      by_contra hmatch
      obtain ⟨name, hmem, hname⟩ := hunknown
      exact matching_known hmatch name hmem hname
    rw [hnone] at hrun
    have hdelete : executeDelete env whereClause table = .ok (rowsAffected "Rows deleted" 0) t := by
      rw [executeDelete, bind_ok hrun]
      rfl
    exact iff_of_false (not_rejected_of_ok hdelete) hraise

theorem executeUpdate_rejected_iff (h : table.Represents rows)
    {assignments : List (String × Expression)}
    (hunknown : MentionsUnknown table.schema
      (assignmentColumns assignments ++ whereColumns whereClause)) :
    Rejected (executeUpdate env assignments whereClause) table ↔
      Raises env table rows whereClause ∨ matchingOf env table rows whereClause ≠ [] := by
  obtain ⟨hraises, hreturns⟩ := run_matchingOf env h whereClause
  by_cases hraise : Raises env table rows whereClause
  · obtain ⟨what, t, hrun⟩ := hraises hraise
    exact iff_of_true ⟨what, t, bind_error hrun⟩ (Or.inl hraise)
  · obtain ⟨t, hrun⟩ := hreturns hraise
    have hready := matched_ready env h hrun
    obtain ⟨hschema, -⟩ := matched_of_run h hrun
    cases hmatch : matchingOf env table rows whereClause with
    | nil =>
        rw [hmatch] at hrun
        have hupdate : executeUpdate env assignments whereClause table =
            .ok (rowsAffected "Rows updated" 0) t := by
          rw [executeUpdate, bind_ok hrun]
          rfl
        exact iff_of_false (not_rejected_of_ok hupdate) (by simp [hraise])
    | cons record others =>
        have hset := unknown_elsewhere env hunknown (by rw [hmatch]; exact List.cons_ne_nil _ _)
        rw [hmatch] at hrun hready
        rw [← hschema] at hset
        obtain ⟨what, t', herror⟩ := @assignAll_rejects t others _ record
          (hready record List.mem_cons_self) hset
        refine iff_of_true ⟨what, t', ?_⟩ (Or.inr (List.cons_ne_nil _ _))
        rw [executeUpdate, bind_ok hrun]
        exact bind_error herror

theorem executeSelect_rejected_iff (h : table.Represents rows) (selectAll : Bool)
    {items : List SelectItem}
    (hunknown : MentionsUnknown table.schema (itemColumns items ++ whereColumns whereClause)) :
    Rejected (executeSelect env quotient selectAll items whereClause) table ↔
      Raises env table rows whereClause ∨
        (if items.any isAggregate then ∃ item ∈ items, BadItem table.schema item
        else selectAll = false ∧ matchingOf env table rows whereClause ≠ []) := by
  obtain ⟨hraises, hreturns⟩ := run_matchingOf env h whereClause
  by_cases hraise : Raises env table rows whereClause
  · obtain ⟨what, t, hrun⟩ := hraises hraise
    refine iff_of_true ⟨what, t, ?_⟩ (Or.inl hraise)
    refine bind_error ?_
    rw [selectRows]
    split
    · exact bind_error (bind_error hrun)
    · exact bind_error hrun
  · obtain ⟨t, hrun⟩ := hreturns hraise
    have hready := matched_ready env h hrun
    obtain ⟨hschema, hmatched⟩ := matched_of_run h hrun
    obtain ⟨hgrows, -⟩ := (matchingRecords_along env h whereClause).of_ok hrun
    have hclosed := (hgrows.represents h).strings
    simp only [hraise, false_or]
    by_cases hany : items.any isAggregate = true
    · -- one row of aggregates, for which every item is looked at even if there are no records
      have hselect : executeSelect env quotient selectAll items whereClause table = (do
          let row ← aggregateItems quotient (matchingOf env table rows whereClause) items (.object [])
          return Response.success "Rows selected" (.object [("result", .array [row])])) t := by
        rw [executeSelect, selectRows, if_pos hany, aggregateSelect, bind_assoc, bind_assoc, bind_ok hrun]
        simp only [pure_bind]
      rw [if_pos hany]
      by_cases hbad : ∃ item ∈ items, BadItem table.schema item
      · rw [← hschema] at hbad
        obtain ⟨what, t', herror⟩ := aggregateItems_rejects quotient hmatched hbad (.object [])
        exact iff_of_true ⟨what, t', hselect.trans (bind_error herror)⟩ (hschema ▸ hbad)
      · -- the unknown column is one of the `WHERE`, so there are no records to add up
        have hgood : ∀ item ∈ items, ∃ function column i, item.expr = .aggregate function column ∧
            table.schema.columnIndex column = some i := by
          intro item hitem
          by_contra hnot
          refine hbad ⟨item, hitem, fun function column hexpr => ?_⟩
          cases hindex : table.schema.columnIndex column with
          | none => rfl
          | some i => exact absurd ⟨function, column, i, hexpr, hindex⟩ hnot
        have hnone : matchingOf env table rows whereClause = [] := by
          by_contra hmatch
          obtain ⟨name, hmem, hname⟩ := unknown_elsewhere env hunknown hmatch
          obtain ⟨item, hitem, hcolumn⟩ := List.mem_flatMap.1 hmem
          obtain ⟨function, column, i, hexpr, hindex⟩ := hgood item hitem
          rw [hexpr] at hcolumn
          obtain rfl := List.mem_singleton.1 hcolumn
          rw [hname] at hindex
          cases hindex
        have hall : ∀ item ∈ items, ∃ function column i total,
            item.expr = .aggregate function column ∧ t.schema.columnIndex column = some i ∧
              addRecords function column i [] 0 0 t = .ok total t := by
          intro item hitem
          obtain ⟨function, column, i, hexpr, hindex⟩ := hgood item hitem
          exact ⟨function, column, i, (0, 0), hexpr, hschema ▸ hindex, rfl⟩
        obtain ⟨row, hrow⟩ := run_aggregateItems quotient (.object []) hall
        rw [hnone] at hselect
        exact iff_of_false (not_rejected_of_ok (hselect.trans (bind_ok hrow))) hbad
    · -- a row for each record: without records no item is looked at
      have hselect : executeSelect env quotient selectAll items whereClause table = (do
          let rows ← selectRecords selectAll items (matchingOf env table rows whereClause)
          return Response.success "Rows selected" (.object [("result", .array rows)])) t := by
        rw [executeSelect, selectRows, if_neg hany, bind_assoc, bind_ok hrun]
        simp only [bind_assoc, pure_bind]
      rw [if_neg hany]
      cases selectAll with
      | true =>
          obtain ⟨result, hresult⟩ := run_selectRecords_all hmatched hclosed items
          exact iff_of_false (not_rejected_of_ok (hselect.trans (bind_ok hresult))) (by simp)
      | false =>
          cases hmatch : matchingOf env table rows whereClause with
          | nil =>
              rw [hmatch] at hselect
              exact iff_of_false (not_rejected_of_ok (hselect.trans rfl)) (by simp)
          | cons record others =>
              have hitems := unknown_elsewhere env hunknown
                (by rw [hmatch]; exact List.cons_ne_nil _ _)
              rw [hmatch] at hselect hready
              rw [← hschema] at hitems
              obtain ⟨what, t', herror⟩ := @selectRecords_rejects t others _ record
                (hready record List.mem_cons_self) hitems
              exact iff_of_true ⟨what, t', hselect.trans (bind_error herror)⟩
                ⟨rfl, List.cons_ne_nil _ _⟩

/-- A statement that mentions an unknown column is answered with an error if and only if its `WHERE` raises
    an exception (which it does as soon as a row is looked at, if it mentions the column), a row matches
    whose columns are then assigned or shown, or the statement is an aggregate `SELECT` with an item that is
    no aggregate of a column. -/
theorem unknown_column_rejected_iff {n : Nat} (h : Table.Run n table rows stack) (hn : n < 2 ^ 32) :
    (∀ whereClause, MentionsUnknown table.schema (whereColumns whereClause) →
      (Rejected (executeDelete env whereClause) table ↔ Raises env table rows whereClause)) ∧
    (∀ assignments whereClause, MentionsUnknown table.schema
        (assignmentColumns assignments ++ whereColumns whereClause) →
      (Rejected (executeUpdate env assignments whereClause) table ↔
        Raises env table rows whereClause ∨ matchingOf env table rows whereClause ≠ [])) ∧
    ∀ selectAll items whereClause, MentionsUnknown table.schema
        (itemColumns items ++ whereColumns whereClause) →
      (Rejected (executeSelect env quotient selectAll items whereClause) table ↔
        Raises env table rows whereClause ∨
          (if items.any isAggregate then ∃ item ∈ items, BadItem table.schema item
          else selectAll = false ∧ matchingOf env table rows whereClause ≠ [])) := by
  obtain ⟨htracks, -⟩ := h.tracks hn
  have hrep := htracks.toRepresents
  refine ⟨fun whereClause hunknown => executeDelete_rejected_iff env hrep hunknown,
    fun assignments whereClause hunknown => executeUpdate_rejected_iff env hrep hunknown,
    fun selectAll items whereClause hunknown => ?_⟩
  exact executeSelect_rejected_iff env quotient hrep selectAll hunknown

/-- `missing < 1`. -/
def missingIsSmall : Condition :=
  .comparison (.identifier "missing") .less (.literal ⟨.integer, "1"⟩)

theorem unknown_column_rejected_iff_missing :
    Rejected (executeDelete stillEnv (some missingIsSmall)) (Table.new keySchema) ↔
      Raises stillEnv (Table.new keySchema) Rows.empty (some missingIsSmall) :=
  (unknown_column_rejected_iff stillEnv (fun _ _ => (0, 0))
    (.new keySchema_wellFormed rfl) (by decide)).1 (some missingIsSmall) ⟨"missing", by decide, rfl⟩

/-- An empty table takes every one of these statements. -/
theorem unknown_column_accepted :
    Table.Run 0 (Table.new keySchema) Rows.empty [] ∧
      MentionsUnknown keySchema (whereColumns (some missingIsSmall)) ∧
      executeDelete stillEnv (some missingIsSmall) (Table.new keySchema) =
        .ok (rowsAffected "Rows deleted" 0) (Table.new keySchema) ∧
      executeUpdate stillEnv [("missing", .literal ⟨.integer, "1"⟩)] none (Table.new keySchema) =
        .ok (rowsAffected "Rows updated" 0) (Table.new keySchema) ∧
      executeSelect stillEnv (fun _ _ => (0, 0)) false [{ expr := .identifier "missing" }] none
          (Table.new keySchema) =
        .ok (.success "Rows selected" (.object [("result", .array [])])) (Table.new keySchema) :=
  ⟨.new keySchema_wellFormed rfl, ⟨"missing", by decide, rfl⟩, rfl, rfl, rfl⟩

end Executor

end QuasarDB.Storage
