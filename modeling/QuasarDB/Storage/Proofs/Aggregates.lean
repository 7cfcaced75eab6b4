import QuasarDB.Storage.Proofs.Assignments
import QuasarDB.Storage.Proofs.SelectFrame

set_option autoImplicit false

/-! # Aggregates and the rows they are made of

The aggregates of a `SELECT` are those of the column that a `SELECT` of the column alone gives. With fewer
than `2 ^ 32` rows no sum of `INT` values leaves the range of an `int64_t` on the way. -/

namespace QuasarDB.Storage

open Prog Server Core

/-! ## Columns of a result -/

/-- The values of a column in the rows of a result. -/
def columnOf (column : String) : Json → List Json
  | .array rows => rows.filterMap (Json.find column)
  | _ => []

/-- `!= null`. -/
def isPresent : Json → Bool
  | .null => false
  | _ => true

def integerOf : Json → Option Int
  | .integer n => some n
  | _ => none

/-- What an aggregate is of the values of its column. -/
def aggregateOf (quotient : Quotient) (function : AggregateFunction) (values : List Json) : Json :=
  let integers := values.filterMap integerOf
  match function with
  | .count => .integer (values.filter isPresent).length
  | .sum => .integer integers.sum
  | .avg =>
      if integers = [] then .null
      else .float (quotient integers.sum integers.length).1 (quotient integers.sum integers.length).2

/-! ## Sums that stay in range -/

/-- A number of `int32_t` values adds up to less than that many times the largest. -/
theorem sum_within {ints : List Int} (h : ∀ n ∈ ints, -2 ^ 31 ≤ n ∧ n ≤ 2 ^ 31) :
    -(2 ^ 31 * ints.length) ≤ ints.sum ∧ ints.sum ≤ 2 ^ 31 * ints.length := by
  induction ints with
  | nil => simp
  | cons n ints ih =>
      obtain ⟨hn, hints⟩ := List.forall_mem_cons.1 h
      have hrest := ih hints
      rw [List.sum_cons, List.length_cons]
      push_cast
      omega

theorem addInt64_eq {σ : Type} {a b : Int} (hlow : -2 ^ 63 ≤ a + b) (hhigh : a + b < 2 ^ 63) :
    (addInt64 a b : Prog σ Int) = pure (a + b) := if_pos ⟨hlow, hhigh⟩

/-! ## Adding up records -/

def Value.toInt? : Value → Option Int
  | .int n => some n.toInt
  | _ => none

section AddRecords

open Executor

variable {σ : Type} {function : AggregateFunction} {column : String} {i : Nat}
  {records : List Record} {sum count : Int}

/-- The values of a column. -/
def valuesAt (i : Nat) (records : List Record) : List Value := records.filterMap (·.fields[i]?)

theorem valuesAt_cons {record : Record} {value : Value} (h : record.fields[i]? = some value) :
    valuesAt i (record :: records) = value :: valuesAt i records := by
  exact List.filterMap_cons_some h

/-- The values that are not `NULL` are counted. -/
theorem addRecords_count (hfields : ∀ record ∈ records, i < record.fields.length) (hcount : 0 ≤ count)
    (hroom : count + records.length < 2 ^ 63) (s : σ) :
    addRecords .count column i records sum count s =
      .ok (sum, count + ((valuesAt i records).filter fun value => !value.isNull).length) s := by
  induction records generalizing count with
  | nil => simp [addRecords, valuesAt]
  | cons record records ih =>
      obtain ⟨hlt, hothers⟩ := List.forall_mem_cons.1 hfields
      have hvalue := List.getElem?_eq_getElem hlt
      generalize record.fields[i] = value at hvalue
      rw [List.length_cons] at hroom
      push_cast at hroom
      rw [addRecords, hvalue, valuesAt_cons hvalue]
      dsimp only
      unfold addValue
      rw [if_pos rfl]
      cases hnull : value.isNull with
      | true =>
          have hadd : (addInt64 count 0 : Prog σ Int) = pure count := by
            rw [addInt64_eq (by omega) (by omega), add_zero]
          simp only [if_true, hadd, run_pure_bind, pure_bind]
          rw [ih hothers hcount (by omega), List.filter_cons_of_neg (by simp [hnull])]
      | false =>
          have hadd : (addInt64 count 1 : Prog σ Int) = pure (count + 1) :=
            addInt64_eq (by omega) (by omega)
          simp only [Bool.false_eq_true, if_false, hadd, pure_bind]
          rw [ih hothers (by omega) (by omega), List.filter_cons_of_pos (by simp [hnull]),
            List.length_cons]
          push_cast
          rw [add_assoc, add_comm 1]

/-- Integers are added up, without an overflow. -/
theorem addRecords_sum (hfunction : function ≠ .count)
    (hfields : ∀ record ∈ records, i < record.fields.length)
    (hint : ∀ value ∈ valuesAt i records, value ≠ .null → value.isInt = true) (hcount : 0 ≤ count)
    (hroom : count + records.length < 2 ^ 32)
    (hlow : -(2 ^ 31 * count) ≤ sum) (hhigh : sum ≤ 2 ^ 31 * count) (s : σ) :
    addRecords function column i records sum count s =
      .ok (sum + ((valuesAt i records).filterMap Value.toInt?).sum,
        count + ((valuesAt i records).filterMap Value.toInt?).length) s := by
  induction records generalizing sum count with
  | nil => simp [addRecords, valuesAt]
  | cons record records ih =>
      obtain ⟨hlt, hothers⟩ := List.forall_mem_cons.1 hfields
      have hvalue := List.getElem?_eq_getElem hlt
      generalize record.fields[i] = value at hvalue
      rw [valuesAt_cons hvalue] at hint ⊢
      obtain ⟨hfirst, hrest⟩ := List.forall_mem_cons.1 hint
      rw [List.length_cons] at hroom
      push_cast at hroom
      rw [addRecords, hvalue]
      dsimp only
      unfold addValue
      rw [if_neg hfunction]
      cases value with
      | null =>
          dsimp only
          rw [pure_bind]
          exact ih hothers hrest hcount (by omega) hlow hhigh
      | string id => cases hfirst (by simp)
      | int n =>
          have hleast := n.le_toInt
          have hmost := n.toInt_lt
          have haddSum : (addInt64 sum n.toInt : Prog σ Int) = pure (sum + n.toInt) :=
            addInt64_eq (by omega) (by omega)
          have haddCount : (addInt64 count 1 : Prog σ Int) = pure (count + 1) :=
            addInt64_eq (by omega) (by omega)
          dsimp only
          simp only [haddSum, haddCount, pure_bind]
          rw [ih hothers hrest (by omega) (by omega) (by omega) (by omega),
            List.filterMap_cons_some (show Value.toInt? (.int n) = some n.toInt from rfl),
            List.sum_cons, List.length_cons]
          push_cast
          rw [add_assoc, add_assoc, add_comm 1]

end AddRecords

/-! ## Values in a result -/

/-- The JSON of a value, whose string is known. -/
def Interner.json (interner : Interner) : Value → Json
  | .null => .null
  | .int value => .integer value.toInt
  | .string id => .string ((interner.idToView.lookup id.value).getD "")

theorem run_jsonValue {store : StringStore} {value : Value} (h : store.toInterner.Knows value) :
    jsonValue value store = .ok (store.toInterner.json value) store := by
  cases value with
  | null => rfl
  | int n => rfl
  | string id =>
      obtain ⟨view, hview⟩ := Option.isSome_iff_exists.1 h
      rw [jsonValue, bind_ok (run_viewOf hview), Interner.json, hview]
      rfl

theorem isPresent_json (interner : Interner) (value : Value) :
    isPresent (interner.json value) = !value.isNull := by
  cases value <;> rfl

theorem integerOf_json (interner : Interner) (value : Value) :
    integerOf (interner.json value) = value.toInt? := by
  cases value <;> rfl

/-- An aggregate of the JSON values is made of the number and the sum of the values. -/
theorem aggregateOf_json (quotient : Quotient) (function : AggregateFunction) (interner : Interner)
    (values : List Value) :
    aggregateOf quotient function (values.map interner.json) =
      Executor.aggregateValue quotient function (values.filterMap Value.toInt?).sum
        (if function = .count then (values.filter fun value => !value.isNull).length
        else (values.filterMap Value.toInt?).length) := by
  have hpresent : (values.map interner.json).filter isPresent =
      (values.filter fun value => !value.isNull).map interner.json := by
    rw [List.filter_map]
    congr 2
    funext value
    exact isPresent_json interner value
  have hintegers : (values.map interner.json).filterMap integerOf = values.filterMap Value.toInt? := by
    rw [List.filterMap_map]
    congr 1
    funext value
    exact integerOf_json interner value
  unfold aggregateOf Executor.aggregateValue
  rw [hpresent, hintegers]
  cases function with
  | count => simp
  | sum => rfl
  | avg => simp [List.length_eq_zero_iff]

namespace Executor

variable {table table' : Table} {rows : Rows} {stack : List Entry} {schema : Schema}
  {records : List Record} {column : String} {i : Nat} (quotient : Quotient)

/-- A `SELECT` of one column gives its values. -/
theorem run_selectRecords_column (hindex : table.schema.columnIndex column = some i)
    (hfields : ∀ record ∈ records, i < record.fields.length)
    (hknown : ∀ record ∈ records, ∀ value ∈ record.fields, table.strings.toInterner.Knows value) :
    ∃ rows, selectRecords false [{ expr := .identifier column }] records table = .ok rows table ∧
      rows.filterMap (Json.find column) = (valuesAt i records).map table.strings.toInterner.json := by
  induction records with
  | nil => exact ⟨[], rfl, rfl⟩
  | cons record records ih =>
      obtain ⟨hlt, hothers⟩ := List.forall_mem_cons.1 hfields
      obtain ⟨hfirst, hrest⟩ := List.forall_mem_cons.1 hknown
      obtain ⟨rows, hrows, hfind⟩ := ih hothers hrest
      have hvalue := List.getElem?_eq_getElem hlt
      have hjson := run_jsonValue (hfirst _ (List.getElem_mem hlt))
      generalize record.fields[i] = value at hvalue hjson
      have hexpression : expressionValue (.identifier column) table.schema record table.strings =
          .ok value table.strings := by
        simp only [expressionValue, hindex, hvalue]
        rfl
      have hrow : Table.onStrings (selectFields table.schema record
          [{ expr := .identifier column }] (.object [])) table =
          .ok (.object [(column, table.strings.toInterner.json value)]) table := by
        refine Table.run_onStrings ?_
        rw [selectFields]
        dsimp only
        rw [bind_ok hexpression, bind_ok hjson]
        rfl
      refine ⟨.object [(column, table.strings.toInterner.json value)] :: rows, ?_, ?_⟩
      · rw [selectRecords, run_get_bind]
        simp only [Bool.false_eq_true, if_false]
        rw [bind_ok hrow, bind_ok hrows]
        rfl
      · rw [valuesAt_cons hvalue, List.map_cons, List.filterMap_cons_some (b :=
          table.strings.toInterner.json value) (by rw [Json.find_cons, if_pos rfl]), hfind]

/-- The name that an item has in a result. -/
def itemName (item : SelectItem) : String :=
  match item.expr with
  | .aggregate function column => resultName item function column
  | _ => ""

/-- Every aggregate stands under its name. -/
theorem aggregateItems_eq_ok {items : List SelectItem} {members : List (String × Json)} {row : Json}
    (hnames : (items.map itemName).Nodup)
    (h : aggregateItems quotient records items (.object members) table = .ok row table') :
    ∃ members', row = .object members' ∧
      (∀ name, name ∉ items.map itemName → row.find name = (Json.object members).find name) ∧
      ∀ item ∈ items, ∀ function column, item.expr = .aggregate function column →
        ∃ i sum count, table.schema.columnIndex column = some i ∧
          addRecords function column i records 0 0 table = .ok (sum, count) table ∧
          row.find (resultName item function column) =
            some (aggregateValue quotient function sum count) := by
  induction items generalizing members with
  | nil =>
      obtain ⟨rfl, rfl⟩ := Prog.pure_eq_ok.1 h
      exact ⟨members, rfl, fun _ _ => rfl, fun _ hitem => nomatch hitem⟩
  | cons item items ih =>
      obtain ⟨hnew, hnames⟩ := List.nodup_cons.1 hnames
      rw [aggregateItems] at h
      cases hexpr : item.expr with
      | identifier name =>
          rw [hexpr] at h
          cases h
      | literal literal =>
          rw [hexpr] at h
          cases h
      | aggregate function column =>
          have hname : itemName item = resultName item function column := by rw [itemName, hexpr]
          simp only [hexpr, run_get_bind] at h
          cases hindex : table.schema.columnIndex column with
          | none =>
              rw [hindex] at h
              cases h
          | some i =>
              rw [hindex] at h
              obtain ⟨⟨sum, count⟩, table₁, hadd, h₁⟩ := Prog.bind_eq_ok.1 h
              -- adding up does not touch the table
              obtain rfl : table = table₁ := by
                have hsame := moves_addRecords (· = ·) function column i records 0 0 table
                rwa [after_ok hadd] at hsame
              obtain ⟨members', rfl, hothers, hitems⟩ := ih hnames h₁
              refine ⟨members', rfl, fun name hmem => ?_, List.forall_mem_cons.2 ⟨?_, hitems⟩⟩
              · rw [List.map_cons, List.mem_cons, not_or] at hmem
                exact (hothers name hmem.2).trans (Json.find_set_of_ne _ _ _ _ (hname ▸ hmem.1))
              · intro function' column' hexpr'
                rw [hexpr] at hexpr'
                cases hexpr'
                exact ⟨i, sum, count, hindex, hadd,
                  (hothers _ (hname ▸ hnew)).trans (Json.find_set_self _ _ _)⟩

/-- The aggregates are there if every one of them can be added up. -/
theorem run_aggregateItems {items : List SelectItem} (row : Json)
    (h : ∀ item ∈ items, ∃ function column i total, item.expr = .aggregate function column ∧
      table.schema.columnIndex column = some i ∧
      addRecords function column i records 0 0 table = .ok total table) :
    ∃ row', aggregateItems quotient records items row table = .ok row' table := by
  induction items generalizing row with
  | nil => exact ⟨row, rfl⟩
  | cons item items ih =>
      obtain ⟨⟨function, column, i, total, hexpr, hindex, hadd⟩, hitems⟩ := List.forall_mem_cons.1 h
      obtain ⟨row', hrun⟩ := ih (row.set (resultName item function column)
        (aggregateValue quotient function total.1 total.2)) hitems
      refine ⟨row', ?_⟩
      simp only [aggregateItems, hexpr, run_get_bind, hindex]
      rw [bind_ok hadd]
      exact hrun

/-! ## Both results -/

/-- The name of an `INT` column. -/
def IntColumn (schema : Schema) (name : String) : Prop :=
  ∃ i column, schema.columnIndex name = some i ∧ schema.columns[i]? = some column ∧
    column.isInt = true

/-- The records that a condition has matched. -/
structure Matched (table : Table) (records : List Record) : Prop where
  length : records.length < 2 ^ 32
  fields : ∀ record ∈ records, record.fields.length = table.schema.size
  known : ∀ record ∈ records, ∀ value ∈ record.fields, table.strings.toInterner.Knows value
  allowed : ∀ record ∈ records, table.schema.Allows record.fields

theorem matched_of_run {env : ExecutorEnv} {whereClause : Option Condition}
    (h : table.Represents rows)
    (hrun : matchingRecords env whereClause table = .ok records table') :
    table'.schema = table.schema ∧ Matched table' records := by
  obtain ⟨hgrows, hsublist⟩ := (matchingRecords_along env h whereClause).of_ok hrun
  have h' := hgrows.represents h
  have hrecord : ∀ record ∈ records, table'.IsRecord rows record := by
    intro record hmem
    rw [← h'.mem_recordsOf, hgrows.recordsOf]
    exact hsublist.subset hmem
  have hlist : rows.list.length ≤ rows.count := by
    rw [Rows.list, Rows.ids]
    exact (List.length_filterMap_le _ _).trans (by simp)
  have hcount := hsublist.length_le
  rw [Table.recordsOf, List.length_map] at hcount
  refine ⟨?_, lt_of_le_of_lt (hcount.trans hlist) h.count_lt,
    fun record hmem => (h'.sound.allowed _ _ (hrecord record hmem).row).length,
    fun record hmem => h'.sound.known _ _ (hrecord record hmem).row,
    fun record hmem => h'.sound.allowed _ _ (hrecord record hmem).row⟩
  obtain ⟨strings, -, rfl⟩ := hgrows
  rfl

namespace Matched

variable (h : Matched table records)
include h

theorem lt_length (hindex : table.schema.columnIndex column = some i) :
    ∀ record ∈ records, i < record.fields.length := by
  intro record hrecord
  rw [h.fields record hrecord]
  exact (List.findIdx?_eq_some_iff_findIdx_eq.1 hindex).1

/-- The values of an `INT` column are integers. -/
theorem ints {c : Column} (hcolumn : table.schema.columns[i]? = some c) (hint : c.isInt = true) :
    ∀ value ∈ valuesAt i records, value ≠ .null → value.isInt = true := by
  intro value hvalue hnull
  obtain ⟨record, hrecord, hfield⟩ := List.mem_filterMap.1 hvalue
  have htype := Table.typed_of_allows (h.allowed record hrecord) i c value hcolumn hfield hnull
  have hcint : c.columnType = .int := by simpa [Column.isInt] using hint
  simpa [IndexSet.HasType, hcint] using htype

/-- What an aggregate adds up to. -/
theorem run_addRecords {function : AggregateFunction}
    (hindex : table.schema.columnIndex column = some i)
    (hint : function ≠ .count → ∀ value ∈ valuesAt i records, value ≠ .null → value.isInt = true) :
    ∃ sum count, addRecords function column i records 0 0 table = .ok (sum, count) table ∧
      ∀ interner : Interner, aggregateValue quotient function sum count =
        aggregateOf quotient function ((valuesAt i records).map interner.json) := by
  have hlength := h.length
  by_cases hcount : function = .count
  · subst hcount
    refine ⟨_, _, addRecords_count (h.lt_length hindex) le_rfl (by omega) table, fun interner => ?_⟩
    rw [aggregateOf_json, if_pos rfl, zero_add]
    rfl
  · refine ⟨_, _, addRecords_sum hcount (h.lt_length hindex) (hint hcount) le_rfl (by omega)
      (by omega) (by omega) table, fun interner => ?_⟩
    rw [aggregateOf_json, if_neg hcount, zero_add, zero_add]

/-- No partial sum leaves the range of an `int64_t`. -/
theorem partial_sums (k : Nat) :
    -2 ^ 63 ≤ (((valuesAt i records).filterMap Value.toInt?).take k).sum ∧
      (((valuesAt i records).filterMap Value.toInt?).take k).sum < 2 ^ 63 := by
  have hlength : ((valuesAt i records).filterMap Value.toInt?).length ≤ records.length :=
    (List.length_filterMap_le _ _).trans (List.length_filterMap_le _ _)
  have hrange : ∀ n ∈ ((valuesAt i records).filterMap Value.toInt?).take k,
      -2 ^ 31 ≤ n ∧ n ≤ 2 ^ 31 := by
    intro n hn
    obtain ⟨value, -, hvalue⟩ := List.mem_filterMap.1 (List.mem_of_mem_take hn)
    cases value with
    | null => cases hvalue
    | string id => cases hvalue
    | int m =>
        obtain rfl := Option.some.inj hvalue
        have hleast := m.le_toInt
        have hmost := m.toInt_lt
        omega
  have hwithin := sum_within hrange
  have hrecords := h.length
  rw [List.length_take] at hwithin
  omega

/-- A `SELECT` of a column shows its values. -/
theorem run_selectColumn {env : ExecutorEnv} {whereClause : Option Condition} {start : Table}
    (hwhere : matchingRecords env whereClause start = .ok records table)
    (hindex : table.schema.columnIndex column = some i) :
    ∃ values, selectRows env quotient false [{ expr := .identifier column }] whereClause start =
        .ok values table ∧
      columnOf column values = (valuesAt i records).map table.strings.toInterner.json := by
  obtain ⟨values, hvalues, hcolumn⟩ := run_selectRecords_column hindex (h.lt_length hindex) h.known
  refine ⟨.array values, ?_, hcolumn⟩
  rw [selectRows, if_neg (by simp [isAggregate]), bind_ok hwhere, bind_ok hvalues]
  rfl

end Matched

/-- Where the `WHERE` raises nothing, a `SELECT` of aggregates of the columns returns, and whenever it
    returns, each aggregate is that of the values that a `SELECT` of its column returns; the values of an
    `INT` column are added up without leaving the range of an `int64_t`. -/
theorem selectRows_aggregates {env : ExecutorEnv} {n : Nat} (h : Table.Run n table rows stack)
    (hn : n < 2 ^ 32) {whereClause : Option Condition}
    (hwhere : matchingRecords env whereClause table = .ok records table') (selectAll : Bool)
    {items : List SelectItem} (hitems : ∀ item ∈ items, isAggregate item = true)
    (hnames : (items.map itemName).Nodup) :
    (items ≠ [] → (∀ item ∈ items, ∀ function column, item.expr = .aggregate function column →
        (∃ i, table.schema.columnIndex column = some i) ∧
          (function ≠ .count → IntColumn table.schema column)) →
      ∃ result t, selectRows env quotient selectAll items whereClause table = .ok result t) ∧
    ∀ result t, selectRows env quotient selectAll items whereClause table = .ok result t →
      ∀ item ∈ items, ∀ function column, item.expr = .aggregate function column →
        (function ≠ .count → IntColumn table.schema column) →
        ∃ row values, result = .array [row] ∧
          selectRows env quotient false [{ expr := .identifier column }] whereClause table =
            .ok values table' ∧
          row.find (resultName item function column) =
            some (aggregateOf quotient function (columnOf column values)) ∧
          ∀ k, -2 ^ 63 ≤ (((columnOf column values).filterMap integerOf).take k).sum ∧
            (((columnOf column values).filterMap integerOf).take k).sum < 2 ^ 63 := by
  obtain ⟨htracks, -⟩ := h.tracks hn
  obtain ⟨hschema, hmatched⟩ := matched_of_run htracks.toRepresents hwhere
  have hints : ∀ {name : String} {i : Nat}, table.schema.columnIndex name = some i →
      IntColumn table.schema name →
      ∀ value ∈ valuesAt i records, value ≠ .null → value.isInt = true := by
    rintro name i hindex ⟨j, column, hindex', hcolumn, hint⟩
    obtain rfl := Option.some.inj (hindex.symm.trans hindex')
    exact hmatched.ints (by rwa [hschema]) hint
  constructor
  · -- every item finds its column, and its sum
    intro hsome hcolumns
    have hany : items.any isAggregate = true := by
      obtain ⟨item, hitem⟩ := List.exists_mem_of_ne_nil items hsome
      exact List.any_eq_true.2 ⟨item, hitem, hitems item hitem⟩
    have hall : ∀ item ∈ items, ∃ function column i total,
        item.expr = .aggregate function column ∧ table'.schema.columnIndex column = some i ∧
          addRecords function column i records 0 0 table' = .ok total table' := by
      intro item hitem
      cases hexpr : item.expr with
      | identifier name => exact absurd (hitems item hitem) (by simp [isAggregate, hexpr])
      | literal literal => exact absurd (hitems item hitem) (by simp [isAggregate, hexpr])
      | aggregate function column =>
          obtain ⟨⟨i, hindex⟩, hint⟩ := hcolumns item hitem function column hexpr
          obtain ⟨sum, count, hadd, -⟩ := hmatched.run_addRecords quotient (hschema ▸ hindex)
            fun hcount => hints hindex (hint hcount)
          exact ⟨function, column, i, (sum, count), rfl, hschema ▸ hindex, hadd⟩
    obtain ⟨row, hrun⟩ := run_aggregateItems quotient (.object []) hall
    refine ⟨.array [row], table', ?_⟩
    rw [selectRows, if_pos hany, aggregateSelect, bind_assoc, bind_ok hwhere, bind_ok hrun]
    rfl
  · -- the values that were added up are those of the column, in the order of the records
    intro result t hrun item hitem function column hexpr hint
    have hany : items.any isAggregate = true := List.any_eq_true.2 ⟨item, hitem, hitems item hitem⟩
    rw [selectRows, if_pos hany, aggregateSelect, bind_assoc, bind_ok hwhere] at hrun
    obtain ⟨row, table₁, hrow, h₁⟩ := Prog.bind_eq_ok.1 hrun
    obtain ⟨rfl, rfl⟩ := Prog.pure_eq_ok.1 h₁
    obtain ⟨-, -, -, hfound⟩ := aggregateItems_eq_ok quotient hnames hrow
    obtain ⟨i, sum, count, hindex, hadd, hfind⟩ := hfound item hitem function column hexpr
    obtain ⟨sum', count', hadd', hvalue⟩ := hmatched.run_addRecords quotient hindex
      fun hcount => hints (hschema ▸ hindex) (hint hcount)
    rw [hadd] at hadd'
    cases hadd'
    obtain ⟨values, hvalues, hcolumn⟩ := hmatched.run_selectColumn quotient hwhere hindex
    refine ⟨row, values, rfl, hvalues, ?_, fun k => ?_⟩
    · rw [hfind, hvalue table'.strings.toInterner, hcolumn]
    · have hintegers : (columnOf column values).filterMap integerOf =
          (valuesAt i records).filterMap Value.toInt? := by
        rw [hcolumn, List.filterMap_map]
        congr 1
        funext value
        exact integerOf_json _ value
      rw [hintegers]
      exact hmatched.partial_sums k

/-- `SELECT COUNT(a), SUM(b), AVG(b)`. -/
def pairAggregates : List SelectItem :=
  [{ expr := .aggregate .count "a" }, { expr := .aggregate .sum "b" },
    { expr := .aggregate .avg "b" }]

/-- The quotient of a sum that the count divides. -/
def wholeQuotient : Quotient := fun sum count => (sum / count, 0)

/-- Three rows, with `NULL`s in the second one. -/
def insertPairs : Prog Table (Schema × List Record) := do
  let _ ← Table.insertRecord (stillEnv.now 0) [.int 1, .int 2] []
  let _ ← Table.insertRecord (stillEnv.now 1) [.null, .null] []
  let _ ← Table.insertRecord (stillEnv.now 2) [.int 5, .int 4] []
  let records ← Table.records
  return ((← get).schema, records)

def pairRecords : List Record :=
  [{ id := 0, fields := [.int 1, .int 2], address := some ⟨1, 0⟩ },
    { id := 1, fields := [.null, .null], address := some ⟨1, 1⟩ },
    { id := 2, fields := [.int 5, .int 4], address := some ⟨1, 2⟩ }]

theorem run_insertPairs : ∃ table rows stack, Table.Run 3 table rows stack ∧
    table.schema = pairSchema 3 ∧ Table.records table = .ok pairRecords table := by
  have hresult : resultOnNew insertPairs = some (pairSchema 3, pairRecords) := by decide +kernel
  obtain ⟨last, hrun⟩ := eq_ok_of_resultOnNew hresult
  obtain ⟨first, table₁, hfirst, h₁⟩ := Prog.bind_eq_ok.1 hrun
  obtain ⟨second, table₂, hsecond, h₂⟩ := Prog.bind_eq_ok.1 h₁
  obtain ⟨third, table₃, hthird, h₃⟩ := Prog.bind_eq_ok.1 h₂
  obtain ⟨records, table₄, hrecords, h₄⟩ := Prog.bind_eq_ok.1 h₃
  rw [run_get_bind] at h₄
  obtain ⟨heq, -⟩ := Prog.pure_eq_ok.1 h₄
  obtain ⟨hschema, rfl⟩ := Prod.mk.inj heq
  have hints : ∀ (a b : Int32) (interner : Interner), ∀ value ∈ ([.int a, .int b] : List Value),
      interner.Knows value := by
    simp [Interner.Knows]
  have hnulls : ∀ interner : Interner, ∀ value ∈ ([.null, .null] : List Value), interner.Knows value := by
    simp [Interner.Knows]
  have hone := (Table.Run.new pairSchema_wellFormed rfl).insert (hints _ _ _) hfirst
  have hrows := (hone.insert (hnulls _) hsecond).insert (hints _ _ _) hthird
  -- reading the rows leaves the table as it is
  obtain rfl : table₃ = table₄ := by
    rw [(hrows.tracks (by decide)).1.run_records] at hrecords
    injection hrecords
  exact ⟨table₃, _, _, hrows, hschema.symm, hrecords⟩

theorem selectRows_aggregates_pairs :
    ∃ table rows stack, Table.Run 3 table rows stack ∧ ∃ row as bs t,
      selectRows stillEnv wholeQuotient false pairAggregates none table = .ok (.array [row]) t ∧
      selectRows stillEnv wholeQuotient false [{ expr := .identifier "a" }] none table = .ok as table ∧
      selectRows stillEnv wholeQuotient false [{ expr := .identifier "b" }] none table = .ok bs table ∧
      columnOf "a" as = [.integer 1, .null, .integer 5] ∧ columnOf "b" bs = [.integer 2, .null, .integer 4] ∧
      row.find "COUNT(a)" = some (.integer 2) ∧ row.find "SUM(b)" = some (.integer 6) ∧
      row.find "AVG(b)" = some (.float 3 0) := by
  obtain ⟨table, rows, stack, h, hschema, hrecords⟩ := run_insertPairs
  have hint : ∀ item ∈ pairAggregates, ∀ function column, item.expr = .aggregate function column →
      (∃ i, table.schema.columnIndex column = some i) ∧
        (function ≠ .count → IntColumn table.schema column) := by
    rw [hschema]
    have ha : IntColumn (pairSchema 3) "a" := ⟨0, _, rfl, rfl, rfl⟩
    have hb : IntColumn (pairSchema 3) "b" := ⟨1, _, rfl, rfl, rfl⟩
    intro item hitem function column hexpr
    rcases List.mem_cons.1 hitem with rfl | hitem
    · cases hexpr
      exact ⟨⟨0, rfl⟩, fun _ => ha⟩
    · rcases List.mem_cons.1 hitem with rfl | hitem
      · cases hexpr
        exact ⟨⟨1, rfl⟩, fun _ => hb⟩
      · obtain rfl := List.mem_singleton.1 hitem
        cases hexpr
        exact ⟨⟨1, rfl⟩, fun _ => hb⟩
  have hwhere : matchingRecords stillEnv none table = .ok pairRecords table := hrecords
  have hall : ∀ item ∈ pairAggregates, isAggregate item = true := by decide
  obtain ⟨hreturns, hagree⟩ :=
    selectRows_aggregates wholeQuotient h (by decide) hwhere false hall (by decide)
  obtain ⟨result, t, hrun⟩ := hreturns (by simp [pairAggregates]) hint
  -- the columns have the values of the three records
  have hmatched := (matched_of_run (h.tracks (by decide)).1.toRepresents hwhere).2
  obtain ⟨as, has, hcolumnA⟩ := hmatched.run_selectColumn wholeQuotient hwhere
    (show table.schema.columnIndex "a" = some 0 by rw [hschema]; rfl)
  obtain ⟨bs, hbs, hcolumnB⟩ := hmatched.run_selectColumn wholeQuotient hwhere
    (show table.schema.columnIndex "b" = some 1 by rw [hschema]; rfl)
  have hcount : ({ expr := .aggregate .count "a" } : SelectItem) ∈ pairAggregates := by decide
  have hsum : ({ expr := .aggregate .sum "b" } : SelectItem) ∈ pairAggregates := by decide
  have havg : ({ expr := .aggregate .avg "b" } : SelectItem) ∈ pairAggregates := by decide
  obtain ⟨row, as', rfl, has', hfindA, -⟩ :=
    hagree result t hrun _ hcount .count "a" rfl (hint _ hcount .count "a" rfl).2
  obtain ⟨row', bs', hrow', hbs', hfindSum, -⟩ :=
    hagree _ t hrun _ hsum .sum "b" rfl (hint _ hsum .sum "b" rfl).2
  obtain ⟨row'', bs'', hrow'', hbs'', hfindAvg, -⟩ :=
    hagree _ t hrun _ havg .avg "b" rfl (hint _ havg .avg "b" rfl).2
  cases hrow'
  cases hrow''
  rw [has] at has'
  rw [hbs] at hbs' hbs''
  cases has'
  cases hbs'
  cases hbs''
  rw [hcolumnA] at hfindA
  rw [hcolumnB] at hfindSum hfindAvg
  have hthree : aggregateOf wholeQuotient .avg [.integer 2, .null, .integer 4] = .float 3 0 := rfl
  exact ⟨table, rows, stack, h, row, as, bs, t, hrun, has, hbs, hcolumnA, hcolumnB, hfindA, hfindSum,
    hfindAvg.trans (congrArg some hthree)⟩

end Executor

end QuasarDB.Storage
