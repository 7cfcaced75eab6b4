import QuasarDB.Storage.Proofs.Histories

set_option autoImplicit false

/-! # Row operations that fail

`insert_record` and `update_record` check their record first, but not its size: that a record is too large
for a page is only noticed when it is written, after its track, its id or the deletion of the old cell. -/

namespace QuasarDB.Storage

open Prog

namespace Table

variable {table table' : Table} {rows : Rows} {stack : List Entry} {record : Record} {n : Nat}

/-- Only strings were added. -/
structure Unchanged (table table' : Table) : Prop where
  rest : table' = { table with strings := table'.strings }
  strings : table.strings.Grows table'.strings

/-- The record of these rows is valid. -/
def Valid (table : Table) (rows : Rows) (record : Record) : Prop :=
  table.schema.Allows record.fields ∧ rows.Admits table.schema record.id record.fields

theorem Grows.unchanged (h : table.Grows table') : table.Unchanged table' := by
  obtain ⟨strings, hgrows, rfl⟩ := h
  exact ⟨rfl, hgrows⟩

theorem Unchanged.refl (table : Table) : table.Unchanged table := Grows.unchanged (refl_of Grows table)

/-! ## Inserting -/

/-- The names `a`, `aa` and so on. -/
def wideColumn (i : Nat) : Column :=
  { name := String.ofList (List.replicate (i + 1) 'a'), columnType := .int }

/-- A table of as many columns. -/
def wideSchema (width : Nat) : Schema where
  columns := (List.range width).map wideColumn

theorem size_wideSchema (width : Nat) : (wideSchema width).size = width := by
  simp [Schema.size, wideSchema]

end Table

end QuasarDB.Storage
