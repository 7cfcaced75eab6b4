import QuasarDB.Server.Proofs.AstJsonRoundTrip
import QuasarDB.Storage.Execute

set_option autoImplicit false

/-! # What the wire keeps of a statement

A storage node gets the integers of a statement in canonical decimal. It does with them what it would do with
the integers as they were written: every function of the executor is the same on both statements. -/

namespace QuasarDB.Server

/-- The digits of a number stand for it. -/
theorem decimalValue_toString (n : Nat) : decimalValue (toString n).toList = n := by
  rw [Nat.toString_eq_repr, Nat.toList_repr]
  exact (Nat.ofDigitChars_eq_foldl (b := 10)).symm.trans Nat.ofDigitChars_ten_toDigits

theorem isDigits_toString (n : Nat) : IsDigits (toString n) := by
  rw [Nat.toString_eq_repr]
  constructor
  · intro hempty
    have hnil := congrArg String.toList hempty
    rw [Nat.toList_repr] at hnil
    exact Nat.toDigits_ne_nil hnil
  · intro c hc
    rw [Nat.toList_repr] at hc
    exact Nat.isDigit_of_mem_toDigits (by decide) (by decide) hc

/-- The literal and its canonical form are the same number. -/
def Literal.Kept (l : Literal) : Prop := l.literalType = .integer → stoi l.canonical.value = stoi l.value

theorem Literal.kept {l : Literal} (hl : l.Printable) (hfit : l.FitsInt32) : l.Kept := by
  intro htype
  obtain ⟨type, v⟩ := l
  cases htype
  have hdigits : IsDigits v := hl
  have hlt : decimalValue v.toList < 2 ^ 31 := hfit rfl
  have hcanonical : (⟨.integer, v⟩ : Literal).canonical.value = toString (decimalValue v.toList) := rfl
  rw [hcanonical, stoi_of_digits hdigits hlt, stoi_of_digits (isDigits_toString _), decimalValue_toString]
  rwa [decimalValue_toString]

theorem Literal.canonical_type (l : Literal) : l.canonical.literalType = l.literalType := by
  obtain ⟨type, v⟩ := l
  cases type <;> rfl

theorem Literal.canonical_of_ne {l : Literal} (h : l.literalType ≠ .integer) : l.canonical = l := by
  obtain ⟨type, v⟩ := l
  cases type with
  | integer => exact absurd rfl h
  | string => rfl
  | null => rfl

/-! ## Literals of a statement -/

theorem Expression.printable_literals {e : Expression} (h : e.PrintableValue) :
    ∀ l ∈ e.literals, l.Printable := by
  intro l hl
  cases e with
  | literal literal =>
      obtain rfl := List.mem_singleton.1 hl
      exact h
  | _ => nomatch hl

theorem Condition.printable_literals {c : Condition} (h : c.Printable) :
    ∀ l ∈ c.literals, l.Printable := by
  induction c with
  | comparison left op right =>
      exact List.forall_mem_append.2
        ⟨Expression.printable_literals h.1, Expression.printable_literals h.2⟩
  | between value lower upper =>
      exact List.forall_mem_append.2 ⟨List.forall_mem_append.2
        ⟨Expression.printable_literals h.1, Expression.printable_literals h.2.1⟩,
        Expression.printable_literals h.2.2⟩
  | like value pattern => exact Expression.printable_literals h.1
  | and left right ihl ihr => exact List.forall_mem_append.2 ⟨ihl h.1, ihr h.2⟩
  | or left right ihl ihr => exact List.forall_mem_append.2 ⟨ihl h.1, ihr h.2⟩

theorem whereClause_printable_literals {clause : Option Condition} (h : ∀ c ∈ clause, c.Printable) :
    ∀ l ∈ clause.toList.flatMap Condition.literals, l.Printable := by
  intro l hl
  obtain ⟨c, hc, hl⟩ := List.mem_flatMap.1 hl
  exact Condition.printable_literals (h c (Option.mem_toList.1 hc)) l hl

/-- Every literal that the parser takes can be printed. -/
theorem Statement.Parsed.printable_literals {s : Statement} (h : s.Parsed) :
    ∀ l ∈ s.literals, l.Printable := by
  cases s with
  | createTable table columns =>
      intro l hl
      obtain ⟨column, hcolumn, hl⟩ := List.mem_flatMap.1 hl
      exact (h.2.2 column hcolumn).2 l (Option.mem_toList.1 hl)
  | insert table columns values =>
      intro l hl
      obtain ⟨row, hrow, hl⟩ := List.mem_flatten.1 hl
      exact (h.2.2.2 row hrow).2 l hl
  | update table assignments whereClause =>
      obtain ⟨-, ⟨-, hassignments⟩, c, rfl, hc⟩ := h
      refine List.forall_mem_append.2 ⟨fun l hl => ?_, whereClause_printable_literals (by simpa using hc)⟩
      obtain ⟨a, ha, hl⟩ := List.mem_flatMap.1 hl
      exact Expression.printable_literals (hassignments a ha).2 l hl
  | delete table whereClause =>
      obtain ⟨-, c, rfl, hc⟩ := h
      exact whereClause_printable_literals (by simpa using hc)
  | select selectAll items table whereClause =>
      obtain ⟨hitems, -, hclause⟩ := h
      refine List.forall_mem_append.2 ⟨fun l hl => ?_, whereClause_printable_literals hclause⟩
      obtain ⟨item, hitem, hl⟩ := List.mem_flatMap.1 hl
      cases selectAll with
      | true =>
          have hnil : items = [] := hitems
          rw [hnil] at hitem
          nomatch hitem
      | false =>
          have hparsed := (hitems.2 item hitem).1
          cases hexpr : item.expr with
          | literal literal =>
              rw [hexpr] at hl hparsed
              obtain rfl := List.mem_singleton.1 hl
              exact hparsed
          | identifier name =>
              rw [hexpr] at hl
              nomatch hl
          | aggregate function column =>
              rw [hexpr] at hl
              nomatch hl
  | _ => exact fun l hl => nomatch hl

theorem Statement.Parsed.kept_literals {s : Statement} (h : s.Parsed)
    (hfit : ∀ l ∈ s.literals, l.FitsInt32) : ∀ l ∈ s.literals, l.Kept :=
  fun l hl => Literal.kept (h.printable_literals l hl) (hfit l hl)

end QuasarDB.Server

namespace QuasarDB.Storage

open Server Executor

/-! ## Expressions and conditions -/

theorem literalValue_canonical {l : Literal} (h : l.Kept) :
    literalValue l.canonical = literalValue l := by
  unfold literalValue
  rw [l.canonical_type]
  cases htype : l.literalType with
  | null => rfl
  | integer =>
      dsimp only
      rw [h htype]
  | string => rw [Literal.canonical_of_ne (by simp [htype])]

section Expressions

variable {schema : Schema} {record : Record}

theorem expressionValue_canonical {e : Expression} (h : ∀ l ∈ e.literals, l.Kept) :
    expressionValue e.canonical schema record = expressionValue e schema record := by
  cases e with
  | literal l => exact literalValue_canonical (h l (List.mem_singleton.2 rfl))
  | identifier name => rfl
  | aggregate function column => rfl

theorem evaluateCondition_canonical (regexMatch : RegexMatch) {c : Condition}
    (h : ∀ l ∈ c.literals, l.Kept) :
    evaluateCondition regexMatch schema record c.canonical =
      evaluateCondition regexMatch schema record c := by
  induction c with
  | comparison left op right =>
      obtain ⟨hleft, hright⟩ := List.forall_mem_append.1 h
      rw [Condition.canonical, evaluateCondition, evaluateCondition, expressionValue_canonical hleft,
        expressionValue_canonical hright]
  | between value lower upper =>
      obtain ⟨hboth, hupper⟩ := List.forall_mem_append.1 h
      obtain ⟨hvalue, hlower⟩ := List.forall_mem_append.1 hboth
      rw [Condition.canonical, evaluateCondition, evaluateCondition, expressionValue_canonical hvalue,
        expressionValue_canonical hlower, expressionValue_canonical hupper]
  | like value pattern =>
      rw [Condition.canonical, evaluateCondition, evaluateCondition, expressionValue_canonical h]
  | and left right ihl ihr =>
      obtain ⟨hleft, hright⟩ := List.forall_mem_append.1 h
      rw [Condition.canonical, evaluateCondition, evaluateCondition, ihl hleft, ihr hright]
  | or left right ihl ihr =>
      obtain ⟨hleft, hright⟩ := List.forall_mem_append.1 h
      rw [Condition.canonical, evaluateCondition, evaluateCondition, ihl hleft, ihr hright]

end Expressions

namespace Executor

theorem lookup_canonical {column value : Expression} (h : ∀ l ∈ value.literals, l.Kept) :
    lookup column.canonical value.canonical = lookup column value := by
  cases column with
  | identifier name =>
      cases value with
      | literal l =>
          change (do
            let value ← Table.onStrings (literalValue l.canonical)
            Table.findByIndex name value) = _
          rw [literalValue_canonical (h l (List.mem_singleton.2 rfl))]
          rfl
      | identifier other => rfl
      | aggregate function other => rfl
  | literal l => rfl
  | aggregate function name => rfl

theorem indexedRecords_canonical {c : Condition} (h : ∀ l ∈ c.literals, l.Kept) :
    indexedRecords c.canonical = indexedRecords c := by
  induction c with
  | comparison left op right =>
      obtain ⟨hleft, hright⟩ := List.forall_mem_append.1 h
      cases op with
      | equal =>
          rw [Condition.canonical, indexedRecords, indexedRecords, lookup_canonical hright,
            lookup_canonical hleft]
      | _ => rfl
  | and left right ihl ihr =>
      obtain ⟨hleft, hright⟩ := List.forall_mem_append.1 h
      rw [Condition.canonical, indexedRecords, indexedRecords, ihl hleft, ihr hright]
  | or left right ihl ihr => rfl
  | between value lower upper => rfl
  | like value pattern => rfl

theorem filterRecords_canonical (env : ExecutorEnv) {c : Condition} (h : ∀ l ∈ c.literals, l.Kept)
    (records : List Record) :
    filterRecords env c.canonical records = filterRecords env c records := by
  induction records with
  | nil => rfl
  | cons record records ih =>
      rw [filterRecords, filterRecords, ih]
      refine bind_congr fun table => ?_
      dsimp only
      rw [evaluateCondition_canonical env.regexMatch h]

theorem matchingRecords_canonical (env : ExecutorEnv) {clause : Option Condition}
    (h : ∀ l ∈ clause.toList.flatMap Condition.literals, l.Kept) :
    matchingRecords env (clause.map Condition.canonical) = matchingRecords env clause := by
  cases clause with
  | none => rfl
  | some c =>
      have hc : ∀ l ∈ c.literals, l.Kept := by simpa using h
      rw [Option.map_some, matchingRecords, matchingRecords, recordsFor, recordsFor,
        indexedRecords_canonical hc]
      exact bind_congr fun records => filterRecords_canonical env hc records

/-! ## Rows -/

theorem rowValues_canonical {row : List Literal} (h : ∀ l ∈ row, l.Kept) :
    rowValues (row.map Literal.canonical) = rowValues row := by
  induction row with
  | nil => rfl
  | cons l row ih =>
      obtain ⟨hl, hrow⟩ := List.forall_mem_cons.1 h
      rw [List.map_cons, rowValues, rowValues, literalValue_canonical hl, ih hrow]

theorem rowsValues_canonical {rows : List (List Literal)} (h : ∀ l ∈ rows.flatten, l.Kept) :
    rowsValues (rows.map (·.map Literal.canonical)) = rowsValues rows := by
  induction rows with
  | nil => rfl
  | cons row rows ih =>
      obtain ⟨hrow, hrows⟩ := List.forall_mem_append.1 (List.flatten_cons ▸ h)
      rw [List.map_cons, rowsValues, rowsValues, rowValues_canonical hrow, ih hrows]

theorem assign_canonical (schema : Schema) {assignments : List (String × Expression)}
    (h : ∀ l ∈ assignments.flatMap (·.2.literals), l.Kept) (record : Record) :
    assign schema (assignments.map fun a => (a.1, a.2.canonical)) record =
      assign schema assignments record := by
  induction assignments generalizing record with
  | nil => rfl
  | cons a assignments ih =>
      obtain ⟨ha, hothers⟩ := List.forall_mem_append.1 (List.flatMap_cons ▸ h)
      rw [List.map_cons, assign, assign, expressionValue_canonical ha]
      cases schema.columnIndex a.1 with
      | none => rfl
      | some index => exact bind_congr fun value => ih hothers _

theorem assignAll_canonical {assignments : List (String × Expression)}
    (h : ∀ l ∈ assignments.flatMap (·.2.literals), l.Kept) (records : List Record) :
    assignAll (assignments.map fun a => (a.1, a.2.canonical)) records =
      assignAll assignments records := by
  induction records with
  | nil => rfl
  | cons record records ih =>
      rw [assignAll, assignAll, ih]
      refine bind_congr fun table => ?_
      dsimp only
      rw [assign_canonical _ h]

/-! ## Selecting -/

theorem isAggregate_canonical (item : SelectItem) : isAggregate item.canonical = isAggregate item := by
  obtain ⟨expr, aliasName⟩ := item
  cases expr <;> rfl

theorem selectFields_canonical (schema : Schema) (record : Record) (items : List SelectItem)
    (row : Core.Json) :
    selectFields schema record (items.map SelectItem.canonical) row =
      selectFields schema record items row := by
  induction items generalizing row with
  | nil => rfl
  | cons item items ih =>
      obtain ⟨expr, aliasName⟩ := item
      cases expr with
      | identifier name =>
          rw [List.map_cons, selectFields, selectFields]
          exact bind_congr fun value => bind_congr fun json => ih _
      | literal l => rfl
      | aggregate function column => rfl

theorem selectRecords_canonical (selectAll : Bool) (items : List SelectItem) (records : List Record) :
    selectRecords selectAll (items.map SelectItem.canonical) records =
      selectRecords selectAll items records := by
  induction records with
  | nil => rfl
  | cons record records ih =>
      rw [selectRecords, selectRecords, ih]
      refine bind_congr fun table => ?_
      dsimp only
      rw [selectFields_canonical]

theorem aggregateItems_canonical (quotient : Quotient) (records : List Record) (items : List SelectItem)
    (row : Core.Json) :
    aggregateItems quotient records (items.map SelectItem.canonical) row =
      aggregateItems quotient records items row := by
  induction items generalizing row with
  | nil => rfl
  | cons item items ih =>
      obtain ⟨expr, aliasName⟩ := item
      cases expr with
      | aggregate function column =>
          rw [List.map_cons, aggregateItems, aggregateItems]
          refine bind_congr fun table => ?_
          cases table.schema.columnIndex column with
          | none => rfl
          | some i => exact bind_congr fun total => ih _
      | literal l => rfl
      | identifier name => rfl

theorem selectRows_canonical (env : ExecutorEnv) (quotient : Quotient) (selectAll : Bool)
    (items : List SelectItem) {clause : Option Condition}
    (h : ∀ l ∈ clause.toList.flatMap Condition.literals, l.Kept) :
    selectRows env quotient selectAll (items.map SelectItem.canonical) (clause.map Condition.canonical) =
      selectRows env quotient selectAll items clause := by
  have hany : (items.map SelectItem.canonical).any isAggregate = items.any isAggregate := by
    rw [List.any_map]
    congr 1
    funext item
    exact isAggregate_canonical item
  rw [selectRows, selectRows, hany, aggregateSelect, aggregateSelect, matchingRecords_canonical env h]
  simp only [aggregateItems_canonical, selectRecords_canonical]

/-! ## Statements -/

/-- A statement and what arrives of it are executed alike. -/
theorem execute_canonical (env : ExecutorEnv) (quotient : Quotient) {s : Statement}
    (h : ∀ l ∈ s.literals, l.Kept) : execute env quotient s.canonical = execute env quotient s := by
  cases s with
  | insert table columns values =>
      change executeInsert env columns (values.map (·.map Literal.canonical)) = _
      rw [executeInsert, rowsValues_canonical h, List.length_map]
      rfl
  | update table assignments whereClause =>
      obtain ⟨hassignments, hclause⟩ := List.forall_mem_append.1 h
      change executeUpdate env (assignments.map fun a => (a.1, a.2.canonical))
        (whereClause.map Condition.canonical) = _
      rw [executeUpdate, matchingRecords_canonical env hclause]
      simp only [assignAll_canonical hassignments]
      rfl
  | delete table whereClause =>
      change executeDelete env (whereClause.map Condition.canonical) = _
      rw [executeDelete, matchingRecords_canonical env h]
      rfl
  | select selectAll items table whereClause =>
      obtain ⟨-, hclause⟩ := List.forall_mem_append.1 h
      change executeSelect env quotient selectAll (items.map SelectItem.canonical)
        (whereClause.map Condition.canonical) = _
      rw [executeSelect, selectRows_canonical env quotient selectAll items hclause]
      rfl
  | _ => rfl

end Executor

theorem toColumn_canonical {column : ColumnDef} (h : ∀ l ∈ column.defaultValue.toList, l.Kept) :
    toColumn column.canonical = toColumn column := by
  obtain ⟨name, type, notNull, indexed, default⟩ := column
  cases default with
  | none => rfl
  | some l =>
      have hl : l.Kept := h l (by simp)
      change toColumn ⟨name, type, notNull, indexed, some l.canonical⟩ = _
      unfold toColumn
      dsimp only
      rw [l.canonical_type]
      cases htype : l.literalType with
      | null => rfl
      | integer =>
          dsimp only
          rw [hl htype]
      | string => rw [Literal.canonical_of_ne (by simp [htype])]

theorem toSchema_canonical {columns : List ColumnDef}
    (h : ∀ l ∈ columns.flatMap (·.defaultValue.toList), l.Kept) :
    toSchema (columns.map ColumnDef.canonical) = toSchema columns := by
  have hcolumns : (columns.map ColumnDef.canonical).mapM toColumn = columns.mapM toColumn := by
    induction columns with
    | nil => rfl
    | cons column columns ih =>
        obtain ⟨hcolumn, hothers⟩ := List.forall_mem_append.1 (List.flatMap_cons ▸ h)
        rw [List.map_cons, List.mapM_cons, List.mapM_cons, toColumn_canonical hcolumn, ih hothers]
  rw [toSchema, toSchema, hcolumns]

end QuasarDB.Storage
