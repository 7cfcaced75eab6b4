import QuasarDB.Library.Along
import QuasarDB.Storage.Executor

set_option autoImplicit false

/-! # Looking at literals adds strings

Making values of literals, and looking at conditions, adds strings to the store and changes nothing else,
whether it succeeds or throws. -/

namespace QuasarDB.Storage

open Prog Server

/-! ## The string store -/

namespace StringStore

variable {store store' : StringStore}

/-- Strings are added, and a closed store stays closed. -/
structure Grows (store store' : StringStore) : Prop where
  keeps : store.Extends store'
  closed : store.Closed → store'.Closed

instance : IsPreorder StringStore Grows where
  refl := fun _ => ⟨.refl, id⟩
  trans := fun _ _ _ h h' => ⟨h.keeps.trans h'.keeps, fun hclosed => h'.closed (h.closed hclosed)⟩

/-- The values are still known. -/
theorem Grows.knows {values : List Value} (h : store.Grows store')
    (hknown : ∀ value ∈ values, store.toInterner.Knows value) :
    ∀ value ∈ values, store'.toInterner.Knows value :=
  fun value hvalue => h.keeps.knows (hknown value hvalue)

theorem intern_along (str : String) (h : store.Closed) :
    Along Throws Grows (intern str) store fun value store' => store'.toInterner.Knows value := by
  refine Post.mono (intern_post str h) ?_ (fun _ _ h => h.elim)
  exact fun value store' ⟨hextends, hclosed, hknows, _⟩ => ⟨⟨hextends, fun _ => hclosed⟩, hknows⟩

end StringStore

open StringStore

variable {store : StringStore}

theorem literalValue_along (literal : Literal) (h : store.Closed) :
    Along Throws Grows (literalValue literal) store fun value store' => store'.toInterner.Knows value := by
  unfold literalValue
  cases literal.literalType with
  | null => exact Along.pure trivial
  | integer => exact Along.ofExcept_bind fun _ _ => Along.pure trivial
  | string => exact intern_along literal.value h

theorem defaultValue_along (column : Column) (h : store.Closed) :
    Along Throws Grows column.defaultValue store fun value store' => store'.toInterner.Knows value := by
  unfold Column.defaultValue
  cases column.defaultType with
  | none => exact Along.throw _
  | nullValue => exact Along.pure trivial
  | int => exact Along.pure trivial
  | string => exact intern_along column.defaultString h

/-! ## Conditions -/

section Conditions

variable {schema : Schema} {record : Record}

theorem expressionValue_along (expression : Expression) (h : store.Closed)
    (hfields : record.fields.length = schema.size)
    (hknown : ∀ value ∈ record.fields, store.toInterner.Knows value) :
    Along Throws Grows (expressionValue expression schema record) store
      fun value store' => store'.toInterner.Knows value := by
  unfold expressionValue
  cases expression with
  | literal literal => exact literalValue_along literal h
  | identifier name =>
      dsimp only
      cases hindex : schema.columnIndex name with
      | none => exact Along.throw _
      | some index =>
          have hlt : index < record.fields.length := by
            rw [hfields]
            exact (List.findIdx?_eq_some_iff_findIdx_eq.1 hindex).1
          dsimp only
          rw [List.getElem?_eq_getElem hlt]
          exact Along.pure (hknown _ (List.getElem_mem hlt))
  | aggregate function column => exact Along.throw _

theorem viewOf_along (id : StringId) : Along Throws Grows (viewOf id) store fun _ _ => True := by
  refine Along.get_bind ?_
  unfold Interner.view
  cases store.idToView.lookup id.value with
  | none => exact Along.throw _
  | some view => exact Along.pure trivial

/-- A condition is looked at without any effect but on the strings. -/
theorem evaluateCondition_along (regexMatch : RegexMatch) (condition : Condition) (h : store.Closed)
    (hfields : record.fields.length = schema.size)
    (hknown : ∀ value ∈ record.fields, store.toInterner.Knows value) :
    Along Throws Grows (evaluateCondition regexMatch schema record condition) store fun _ _ => True := by
  induction condition generalizing store with
  | comparison left op right =>
      rw [evaluateCondition]
      refine (expressionValue_along left h hfields hknown).bind fun left s hleft _ => ?_
      refine (expressionValue_along right (hleft.closed h) hfields (hleft.knows hknown)).bind
        fun right _ _ _ => ?_
      refine Along.ite (fun _ => Along.pure trivial) fun _ => ?_
      split
      · exact (viewOf_along _).bind fun _ _ _ _ => (viewOf_along _).bind fun _ _ _ _ => Along.pure trivial
      · exact Along.ofExcept fun _ _ => trivial
  | between value lower upper =>
      rw [evaluateCondition]
      refine (expressionValue_along value h hfields hknown).bind fun value _ hs₁ _ => ?_
      refine (expressionValue_along lower (hs₁.closed h) hfields (hs₁.knows hknown)).bind
        fun lower _ hs₂ _ => ?_
      refine Along.ofExcept_bind fun aboveLower _ => ?_
      have hs := trans_of Grows hs₁ hs₂
      refine (expressionValue_along upper (hs.closed h) hfields (hs.knows hknown)).bind
        fun upper _ _ _ => ?_
      exact Along.ofExcept_bind fun _ _ => Along.pure trivial
  | like value pattern =>
      rw [evaluateCondition]
      refine (expressionValue_along value h hfields hknown).bind fun value _ _ _ => ?_
      cases value with
      | null => exact Along.pure trivial
      | int n => exact Along.throw _
      | string id =>
          refine (viewOf_along id).bind fun _ _ _ _ => ?_
          exact Along.ofExcept_bind fun _ _ => Along.pure trivial
  | and left right ihleft ihright =>
      rw [evaluateCondition]
      refine (ihleft h hknown).bind fun _ _ hs _ => ?_
      exact (ihright (hs.closed h) (hs.knows hknown)).bind fun _ _ _ _ => Along.pure trivial
  | or left right ihleft ihright =>
      rw [evaluateCondition]
      refine (ihleft h hknown).bind fun _ _ hs _ => ?_
      exact (ihright (hs.closed h) (hs.knows hknown)).bind fun _ _ _ _ => Along.pure trivial

/-- What an assignment keeps of a record, which has known values before and after. -/
structure Record.Reassigned (record record' : Record) (interner : Interner) : Prop where
  id : record'.id = record.id
  address : record'.address = record.address
  length : record'.fields.length = record.fields.length
  known : ∀ value ∈ record'.fields, interner.Knows value

theorem assign_along (assignments : List (String × Expression)) (h : store.Closed)
    (hfields : record.fields.length = schema.size)
    (hknown : ∀ value ∈ record.fields, store.toInterner.Knows value) :
    Along Throws Grows (Executor.assign schema assignments record) store
      fun record' store' => record.Reassigned record' store'.toInterner := by
  induction assignments generalizing store record with
  | nil => exact Along.pure ⟨rfl, rfl, rfl, hknown⟩
  | cons assignment assignments ih =>
      obtain ⟨column, expression⟩ := assignment
      rw [Executor.assign]
      cases hindex : schema.columnIndex column with
      | none => exact Along.throw _
      | some index =>
          refine (expressionValue_along expression h hfields hknown).bind fun value s hs hvalue => ?_
          have hset : ∀ v ∈ record.fields.set index value, s.toInterner.Knows v := by
            intro v hv
            rcases List.mem_or_eq_of_mem_set hv with hv | rfl
            · exact hs.knows hknown v hv
            · exact hvalue
          refine (ih (hs.closed h) (by rwa [List.length_set]) hset).mono fun record' s' _ hrecord => ?_
          exact ⟨hrecord.id, hrecord.address, by rw [hrecord.length, List.length_set], hrecord.known⟩

end Conditions

/-! ## Rows of literals -/

theorem rowValues_along (literals : List Literal) (h : store.Closed) :
    Along Throws Grows (Executor.rowValues literals) store
      fun values store' => ∀ value ∈ values, store'.toInterner.Knows value := by
  induction literals generalizing store with
  | nil => exact Along.pure (by simp)
  | cons literal literals ih =>
      rw [Executor.rowValues]
      refine (literalValue_along literal h).bind fun value s hs hvalue => ?_
      refine (ih (hs.closed h)).bind fun values s' hs' hvalues => Along.pure ?_
      exact List.forall_mem_cons.2 ⟨hs'.keeps.knows hvalue, hvalues⟩

theorem rowsValues_along (rows : List (List Literal)) (h : store.Closed) :
    Along Throws Grows (Executor.rowsValues rows) store
      fun values store' => values.length = rows.length ∧
        ∀ row ∈ values, ∀ value ∈ row, store'.toInterner.Knows value := by
  induction rows generalizing store with
  | nil => exact Along.pure ⟨rfl, by simp⟩
  | cons literals rows ih =>
      rw [Executor.rowsValues]
      refine (rowValues_along literals h).bind fun values s hs hvalues => ?_
      refine (ih (hs.closed h)).bind fun others s' hs' hothers => Along.pure ⟨?_, ?_⟩
      · rw [List.length_cons, List.length_cons, hothers.1]
      · exact List.forall_mem_cons.2 ⟨hs'.knows hvalues, hothers.2⟩

/-! ## Tables -/

namespace Table

variable {α : Type} {table table' : Table}

/-- Only strings are added. -/
def Grows (table table' : Table) : Prop :=
  ∃ strings, table.strings.Grows strings ∧ table' = { table with strings }

instance : IsPreorder Table Grows where
  refl := fun table => ⟨table.strings, refl_of StringStore.Grows _, rfl⟩
  trans := by
    rintro table _ _ ⟨strings, h, rfl⟩ ⟨strings', h', rfl⟩
    exact ⟨strings', trans_of StringStore.Grows h h', rfl⟩

theorem onStrings_along {x : Prog StringStore α} {P : α → StringStore → Prop}
    (h : Along Throws StringStore.Grows x table.strings P) :
    Along Throws Grows (onStrings x) table fun a table' => P a table'.strings :=
  h.on (fun strings hgrows => ⟨strings, hgrows, rfl⟩) fun _ _ _ ha => ha

theorem applyDefaults_along {provided : List Nat} (columns : List (Column × Nat)) (h : store.Closed) :
    Along Throws StringStore.Grows (applyDefaults provided columns) store
      fun values store' => values.length = columns.length ∧
        ∀ value ∈ values, store'.toInterner.Knows value := by
  induction columns generalizing store with
  | nil => exact Along.pure ⟨rfl, by simp⟩
  | cons c columns ih =>
      obtain ⟨column, i⟩ := c
      have hrest : ∀ value s, store.Grows s → s.toInterner.Knows value →
          Along Throws StringStore.Grows (do return value :: (← applyDefaults provided columns)) s
            fun values store' => values.length = columns.length + 1 ∧
              ∀ value ∈ values, store'.toInterner.Knows value := by
        intro value s hs hknows
        refine (ih (hs.closed h)).bind fun values s' hs' hvalues => Along.pure ?_
        exact ⟨by rw [List.length_cons, hvalues.1],
          List.forall_mem_cons.2 ⟨hs'.keeps.knows hknows, hvalues.2⟩⟩
      rw [applyDefaults]
      refine Along.ite (fun _ => ?_) fun _ => ?_
      · exact (defaultValue_along column h).bind fun value s hs hknows => hrest value s hs hknows
      · exact hrest .null store (refl_of StringStore.Grows store) trivial

theorem updateColumns_keeps {P : Value → Prop} {fields values : List Value} {columnIndices : List Nat}
    (hfields : ∀ value ∈ fields, P value) (hvalues : ∀ value ∈ values, P value) :
    (updateColumns fields values columnIndices).length = fields.length ∧
      ∀ value ∈ updateColumns fields values columnIndices, P value := by
  have hzip : ∀ c ∈ columnIndices.zip values, P c.2 :=
    fun c hc => hvalues c.2 (List.of_mem_zip hc).2
  unfold updateColumns
  generalize columnIndices.zip values = cs at hzip
  induction cs generalizing fields with
  | nil => exact ⟨rfl, hfields⟩
  | cons c cs ih =>
      obtain ⟨hc, hcs⟩ := List.forall_mem_cons.1 hzip
      have hset : ∀ value ∈ fields.set c.1 c.2, P value := by
        intro value hvalue
        rcases List.mem_or_eq_of_mem_set hvalue with hvalue | rfl
        · exact hfields value hvalue
        · exact hc
      obtain ⟨hlength, hall⟩ := ih hset hcs
      rw [List.length_set] at hlength
      exact ⟨hlength, hall⟩

/-- A record that can be validated: it has a value for each column. -/
structure IsNew (table : Table) (recordId : UInt32) (record : Record) : Prop where
  id : record.id = recordId
  address : record.address = none
  length : record.fields.length = table.schema.size
  known : ∀ value ∈ record.fields, table.strings.toInterner.Knows value

/-- Making a record. -/
theorem makeRecord_along {recordId : UInt32} {values : List Value} {columnNames : List String}
    (h : table.strings.Closed)
    (hknown : ∀ value ∈ values, table.strings.toInterner.Knows value) :
    Along Throws Grows (makeRecord recordId values columnNames) table
      fun record table' => table'.IsNew recordId record := by
  refine Along.get_bind ?_
  dsimp only
  refine Along.ite (fun _ => ?_) fun _ => ?_
  · refine Along.throwIf_bind fun hlength => Along.pure ⟨rfl, rfl, ?_, hknown⟩
    simpa using hlength
  · refine Along.throwIf_bind fun _ => Along.ofExcept_bind fun columnIndices _ => ?_
    by_cases hsize : table.schema.size = 0
    · rw [Record.ofCount, if_pos hsize]
      exact Along.throw _
    · rw [Record.ofCount, if_neg hsize]
      refine (onStrings_along (applyDefaults_along _ h)).bind ?_
      rintro fields _ ⟨strings, hgrows, rfl⟩ ⟨hlength, hfields⟩
      obtain ⟨hkeeps, hall⟩ := updateColumns_keeps hfields (hgrows.knows hknown)
      refine Along.pure ⟨rfl, rfl, ?_, hall⟩
      rw [hkeeps, hlength, List.length_zipIdx]
      rfl

end Table

end QuasarDB.Storage
