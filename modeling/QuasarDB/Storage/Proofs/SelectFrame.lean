import QuasarDB.Storage.Proofs.Conditions
import QuasarDB.Storage.Proofs.Statements
import QuasarDB.Storage.Select

set_option autoImplicit false

/-! # What a `SELECT` changes

A `SELECT` gives ids to the texts of its `WHERE` that had none, in memory and in the file, and changes
nothing else, whether it returns or throws. -/

namespace QuasarDB.Storage

open Prog Server

/-! ## New texts -/

namespace StringStore

variable {texts : List String} {store store' : StringStore} {str : String}

/-- Some of the texts that had no id have got one. -/
def Learns (texts : List String) (store store' : StringStore) : Prop :=
  ∃ strs, (∀ str ∈ strs, str ∈ texts ∧ store.stringToId.lookup str = none) ∧
    store' = store.rememberAll strs

instance : IsPreorder StringStore (Learns texts) where
  refl := fun store => ⟨[], by simp, rfl⟩
  trans := by
    rintro store _ _ ⟨strs, hstrs, rfl⟩ ⟨strs', hstrs', rfl⟩
    refine ⟨strs ++ strs', fun str hstr => ?_, (rememberAll_append strs strs').symm⟩
    rcases List.mem_append.1 hstr with hstr | hstr
    · exact hstrs str hstr
    · -- what has no id later had none before
      obtain ⟨hmem, hnone⟩ := hstrs' str hstr
      refine ⟨hmem, ?_⟩
      cases hid : store.stringToId.lookup str with
      | none => rfl
      | some id =>
          rw [(settles_rememberAll strs).ids str id hid] at hnone
          cases hnone

theorem learns_remember (h : str ∈ texts) : Learns texts store (store.remember str) := by
  cases hlookup : store.stringToId.lookup str with
  | none => exact ⟨[str], by simpa using ⟨h, hlookup⟩, rfl⟩
  | some id =>
      rw [remember_of_some hlookup]
      exact refl_of (Learns texts) store

theorem after_intern : (intern str).after store = store.remember str := by
  obtain ⟨id, hrun, -⟩ := run_intern_remember str store
  exact after_ok hrun

theorem moves_intern (h : str ∈ texts) : Moves (Learns texts) (intern str) := by
  intro store
  rw [after_intern]
  exact learns_remember h

end StringStore

open StringStore

section Conditions

variable {texts : List String}

theorem moves_literalValue {literal : Literal}
    (h : ∀ str ∈ expressionTexts (.literal literal), str ∈ texts) :
    Moves (Learns texts) (literalValue literal) := by
  unfold literalValue
  cases htype : literal.literalType with
  | null => exact .pure _
  | integer => exact .bind (.ofExcept _) fun _ => .pure _
  | string => exact moves_intern (h _ (by simp [expressionTexts, htype]))

theorem moves_expressionValue {expression : Expression} (schema : Schema) (record : Record)
    (h : ∀ str ∈ expressionTexts expression, str ∈ texts) :
    Moves (Learns texts) (expressionValue expression schema record) := by
  unfold expressionValue
  cases expression with
  | literal literal => exact moves_literalValue h
  | aggregate function column => exact .throw _
  | identifier name =>
      dsimp only
      split
      · exact .throw _
      · split
        · exact .pure _
        · exact .throw _

theorem moves_view {σ : Type} (R : σ → σ → Prop) [IsPreorder σ R] (interner : Interner)
    (id : StringId) : Moves R (interner.view id : Prog σ String) := by
  unfold Interner.view
  split
  · exact .pure _
  · exact .throw _

theorem moves_viewOf (id : StringId) : Moves (Learns texts) (viewOf id) :=
  .bind .get fun store => moves_view _ store.toInterner id

theorem moves_jsonValue (value : Value) : Moves (Learns texts) (jsonValue value) := by
  cases value with
  | null => exact .pure _
  | int n => exact .pure _
  | string id => exact .bind (moves_viewOf id) fun _ => .pure _

theorem moves_evaluateCondition (regexMatch : RegexMatch) (schema : Schema) (record : Record)
    {condition : Condition} (h : ∀ str ∈ conditionTexts condition, str ∈ texts) :
    Moves (Learns texts) (evaluateCondition regexMatch schema record condition) := by
  induction condition with
  | comparison left op right =>
      rw [conditionTexts, List.forall_mem_append] at h
      refine .bind (moves_expressionValue schema record h.1) fun left => ?_
      refine .bind (moves_expressionValue schema record h.2) fun right => ?_
      refine .ite (fun _ => .pure _) fun _ => ?_
      split
      · exact .bind (moves_viewOf _) fun _ => .bind (moves_viewOf _) fun _ => .pure _
      · exact .ofExcept _
  | between value lower upper =>
      rw [conditionTexts, List.forall_mem_append, List.forall_mem_append] at h
      refine .bind (moves_expressionValue schema record h.1) fun value => ?_
      refine .bind (moves_expressionValue schema record h.2.1) fun lower => ?_
      refine .bind (.ofExcept _) fun aboveLower => ?_
      refine .bind (moves_expressionValue schema record h.2.2) fun upper => ?_
      exact .bind (.ofExcept _) fun belowUpper => .pure _
  | like value pattern =>
      refine .bind (moves_expressionValue schema record h) fun value => ?_
      cases value with
      | null => exact .pure _
      | int n => exact .throw _
      | string id =>
          exact .bind (moves_viewOf id) fun _ => .bind (.ofExcept _) fun _ => .pure _
  | and left right ihl ihr =>
      rw [conditionTexts, List.forall_mem_append] at h
      exact .bind (ihl h.1) fun _ => .bind (ihr h.2) fun _ => .pure _
  | or left right ihl ihr =>
      rw [conditionTexts, List.forall_mem_append] at h
      exact .bind (ihl h.1) fun _ => .bind (ihr h.2) fun _ => .pure _

end Conditions

/-! ## Reading -/

namespace Table

variable {α : Type} {texts : List String}

/-- Some of the texts have got an id, and nothing else is changed. -/
def Learns (texts : List String) (table table' : Table) : Prop :=
  ∃ strings, table.strings.Learns texts strings ∧ table' = { table with strings }

instance : IsPreorder Table (Learns texts) where
  refl := fun table => ⟨table.strings, refl_of (StringStore.Learns texts) _, rfl⟩
  trans := by
    rintro table _ _ ⟨strings, h, rfl⟩ ⟨strings', h', rfl⟩
    exact ⟨strings', trans_of (StringStore.Learns texts) h h', rfl⟩

theorem moves_onStrings {x : Prog StringStore α} (h : Moves (StringStore.Learns texts) x) :
    Moves (Learns texts) (onStrings x) :=
  h.on fun _ strings hlearns => ⟨strings, hlearns, rfl⟩

variable (R : Table → Table → Prop) [IsPreorder Table R]

theorem moves_fromBinary (data : List UInt8) (size recordId : UInt32) (schema : Schema)
    (interner : Interner) : Moves R (Record.fromBinary data size recordId schema interner) := by
  intro table
  have hsame : (Record.fromBinary data size recordId schema interner).after table = table := by
    unfold Record.fromBinary Prog.after
    cases Record.readValues interner schema.size data with
    | error failure rest => rfl
    | ok values rest =>
        by_cases hsize : data.length - rest.length ≠ size.toNat
        · simp only [if_pos hsize]
        · simp only [if_neg hsize]
  rw [hsame]
  exact refl_of R table

theorem moves_readPage (pageIndex : Nat) : Moves R (readPage pageIndex) := by
  refine .ite (fun _ => .bind (.throw _) fun _ => .bind .get fun table => ?_) fun _ =>
    .bind .get fun table => ?_
  all_goals
    split
    · exact .pure _
    · exact .throw _

theorem moves_readRecord (address : RecordAddress) : Moves R (readRecord address) := by
  refine .bind .get fun table => .ite (fun _ => ?_) fun _ => .pure _
  refine .bind (moves_readPage R _) fun cells => .bind ?_ fun record => .pure _
  unfold TablePage.readRecord
  split
  · exact .pure _
  · exact .ite (fun _ => .pure _) fun _ => .bind (moves_fromBinary R _ _ _ _ _) fun _ => .pure _

theorem moves_readIds (ids : List UInt32) : Moves R (readIds ids) := by
  induction ids with
  | nil => exact .pure _
  | cons id ids ih =>
      refine .bind .get fun table => ?_
      split
      · exact ih
      · refine .bind (moves_readRecord R _) fun record => ?_
        cases record with
        | none => exact .throw _
        | some record => exact .bind ih fun _ => .pure _

theorem moves_records : Moves R records := .bind .get fun _ => moves_readIds R _

theorem moves_readMatching (columnIndex : Nat) (value : Value) (addresses : List RecordAddress) :
    Moves R (readMatching columnIndex value addresses) := by
  induction addresses with
  | nil => exact .pure _
  | cons address addresses ih =>
      exact .bind (moves_readRecord R address) fun _ => .bind ih fun _ => .pure _

theorem moves_findByIndex (columnName : String) (value : Value) :
    Moves R (findByIndex columnName value) := by
  refine .bind .get fun table => .bind ?_ fun found => ?_
  · unfold IndexSet.find
    split
    · exact .throw _
    · refine .ite (fun _ => .pure _) fun _ => .ite (fun _ => .pure _) fun _ => .bind ?_ fun index => ?_
      · unfold IndexSet.indexOf
        split
        · exact .pure _
        · exact .throw _
      · exact .bind (.ofExcept _) fun _ => .pure _
  · cases found with
    | none => exact .pure _
    | some addresses => exact .bind (moves_readMatching R _ _ _) fun _ => .pure _

end Table

namespace Executor

variable {texts : List String} (env : ExecutorEnv) (quotient : Quotient)

/-! ## Selecting -/

/-- The texts of a `WHERE`. -/
def whereTexts : Option Condition → List String
  | none => []
  | some condition => conditionTexts condition

theorem moves_lookup {column value : Expression} (h : ∀ str ∈ expressionTexts value, str ∈ texts) :
    Moves (Table.Learns texts) (lookup column value) := by
  unfold lookup
  split
  · exact .bind (Table.moves_onStrings (moves_literalValue h)) fun _ => Table.moves_findByIndex _ _ _
  · exact .pure _

theorem moves_indexedRecords {condition : Condition}
    (h : ∀ str ∈ conditionTexts condition, str ∈ texts) :
    Moves (Table.Learns texts) (indexedRecords condition) := by
  induction condition with
  | and left right ihl ihr =>
      rw [conditionTexts, List.forall_mem_append] at h
      refine .bind (ihl h.1) fun found => ?_
      cases found with
      | some records => exact .pure _
      | none => exact ihr h.2
  | comparison left op right =>
      rw [conditionTexts, List.forall_mem_append] at h
      cases op with
      | equal =>
          refine .bind (moves_lookup h.2) fun found => ?_
          cases found with
          | some records => exact .pure _
          | none => exact moves_lookup h.1
      | _ => exact .pure _
  | or left right ihl ihr => exact .pure _
  | between value lower upper => exact .pure _
  | like value pattern => exact .pure _

theorem moves_filterRecords {condition : Condition} (records : List Record)
    (h : ∀ str ∈ conditionTexts condition, str ∈ texts) :
    Moves (Table.Learns texts) (filterRecords env condition records) := by
  induction records with
  | nil => exact .pure _
  | cons record records ih =>
      refine .bind .get fun table => .bind ?_ fun result => .bind ih fun others => .pure _
      exact Table.moves_onStrings (moves_evaluateCondition _ _ _ h)

theorem moves_matchingRecords (whereClause : Option Condition) :
    Moves (Table.Learns (whereTexts whereClause)) (matchingRecords env whereClause) := by
  cases whereClause with
  | none => exact Table.moves_records _
  | some condition =>
      refine .bind (.bind (moves_indexedRecords fun _ h => h) fun found => ?_) fun records =>
        moves_filterRecords env records fun _ h => h
      cases found with
      | some records => exact .pure _
      | none => exact Table.moves_records _

theorem moves_selectColumns (record : Record) (columns : List (Column × Nat)) (row : Core.Json) :
    Moves (StringStore.Learns texts) (selectColumns record columns row) := by
  induction columns generalizing row with
  | nil => exact .pure _
  | cons c columns ih =>
      rw [selectColumns]
      split
      · exact .throw _
      · exact .bind (moves_jsonValue _) fun _ => ih _

theorem moves_selectFields (schema : Schema) (record : Record) (items : List SelectItem)
    (row : Core.Json) : Moves (StringStore.Learns texts) (selectFields schema record items row) := by
  induction items generalizing row with
  | nil => exact .pure _
  | cons item items ih =>
      rw [selectFields]
      split
      · -- a column has no text
        refine .bind (moves_expressionValue schema record (by simp [expressionTexts])) fun value => ?_
        exact .bind (moves_jsonValue value) fun _ => ih _
      · exact .throw _

theorem moves_selectRecords (selectAll : Bool) (items : List SelectItem) (records : List Record) :
    Moves (Table.Learns texts) (selectRecords selectAll items records) := by
  induction records with
  | nil => exact .pure _
  | cons record records ih =>
      refine .bind .get fun table => .bind (Table.moves_onStrings ?_) fun row => .bind ih fun _ => .pure _
      exact .ite (fun _ => moves_selectColumns _ _ _) fun _ => moves_selectFields _ _ _ _

section Aggregates

variable {σ : Type} (R : σ → σ → Prop) [IsPreorder σ R]

theorem moves_addInt64 (a b : Int) : Moves R (addInt64 a b : Prog σ Int) :=
  .ite (fun _ => .pure _) fun _ => .throw _

theorem moves_addRecords (function : AggregateFunction) (column : String) (columnIndex : Nat)
    (records : List Record) (sum count : Int) :
    Moves R (addRecords function column columnIndex records sum count : Prog σ (Int × Int)) := by
  induction records generalizing sum count with
  | nil => exact .pure _
  | cons record records ih =>
      rw [addRecords]
      split
      · exact .throw _
      · refine .bind (.ite (fun _ => .bind (moves_addInt64 R _ _) fun _ => .pure _) fun _ => ?_)
          fun _ => ih _ _
        split
        · exact .pure _
        · exact .throw _
        · exact .bind (moves_addInt64 R _ _) fun _ => .bind (moves_addInt64 R _ _) fun _ => .pure _

end Aggregates

theorem moves_aggregateItems (records : List Record) (items : List SelectItem) (row : Core.Json) :
    Moves (Table.Learns texts) (aggregateItems quotient records items row) := by
  induction items generalizing row with
  | nil => exact .pure _
  | cons item items ih =>
      rw [aggregateItems]
      split
      · refine .bind .get fun table => ?_
        split
        · exact .throw _
        · exact .bind (moves_addRecords _ _ _ _ _ _ _) fun _ => ih _
      · exact .throw _

theorem moves_selectRows (selectAll : Bool) (items : List SelectItem)
    (whereClause : Option Condition) :
    Moves (Table.Learns (whereTexts whereClause))
      (selectRows env quotient selectAll items whereClause) := by
  refine .ite (fun _ => .bind (.bind (moves_matchingRecords env _) fun records => ?_) fun _ => .pure _)
    fun _ => .bind (moves_matchingRecords env _) fun records => ?_
  · exact moves_aggregateItems quotient records items _
  · exact .bind (moves_selectRecords selectAll items records) fun _ => .pure _

/-- Whether it returns or throws, a `SELECT` changes nothing but the string store, which learns those texts
    of the `WHERE` that had no id. -/
theorem executeSelect_learns (selectAll : Bool) (items : List SelectItem)
    (whereClause : Option Condition) (table : Table) :
    ∃ strs, (∀ str ∈ strs, str ∈ whereTexts whereClause ∧ table.strings.stringToId.lookup str = none) ∧
      (executeSelect env quotient selectAll items whereClause).after table =
        { table with strings := table.strings.rememberAll strs } := by
  have hmoves : Moves (Table.Learns (whereTexts whereClause))
      (executeSelect env quotient selectAll items whereClause) :=
    .bind (moves_selectRows env quotient selectAll items whereClause) fun _ => .pure _
  obtain ⟨strings, ⟨strs, hstrs, rfl⟩, hafter⟩ := hmoves table
  exact ⟨strs, hstrs, hafter⟩

/-- `name = "b"`. -/
def nameIsB : Condition := .comparison (.identifier "name") .equal (.literal ⟨.string, "b"⟩)

/-- A `SELECT` that finds nothing writes the text it looks for to the file. -/
theorem executeSelect_writes :
    Table.Run 0 (Table.new nameSchema) Rows.empty [] ∧ (Table.new nameSchema).strings.file = [] ∧
      ((executeSelect stillEnv (fun _ _ => (0, 0)) true [] (some nameIsB)).after
        (Table.new nameSchema)).strings.file = [(1, "b")] :=
  ⟨.new ⟨by decide, by decide, rfl, by decide⟩ rfl, rfl, rfl⟩

end Executor

end QuasarDB.Storage
