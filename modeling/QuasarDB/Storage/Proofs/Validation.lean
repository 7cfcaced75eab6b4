import QuasarDB.Storage.Proofs.TableState

set_option autoImplicit false

/-! # Validating a record

`validate_record` accepts a record exactly when its values have the types of the columns and no other row
has one of them in an indexed column, and it changes nothing. -/

namespace QuasarDB.Storage

open Prog

namespace Table

variable {table : Table} {rows : Rows} {record : Record}

/-- A record that can be validated: it has a value for each column, and an address if it has a row. -/
structure Candidate (table : Table) (record : Record) : Prop where
  length : record.fields.length = table.schema.size
  address : record.address = table.idToAddr.lookup record.id

namespace Represents

variable (h : table.Represents rows)
include h

/-- An address that is not the record's own is that of a row with another id. -/
theorem run_anyDuplicate (hrecord : table.Candidate record) {i : Nat} {column : Column} {value : Value}
    (hcolumn : table.schema.columns[i]? = some column) (hindexed : column.isIndexed = true)
    (hvalue : value ≠ .null) {index : Index}
    (hindex : index.Has column (entriesOf rows table.idToAddr i)) :
    ∃ found, IndexSet.anyDuplicate record i value readRecord (index.entries.lookup value).toList table =
        .ok found table ∧
      (found = true ↔
        ∃ other row, rows.row other = some row ∧ row[i]? = some value ∧ other ≠ record.id) := by
  cases hentry : index.entries.lookup value with
  | none =>
      refine ⟨false, rfl, by simp, ?_⟩
      rintro ⟨other, row, hrow, hfield, -⟩
      obtain ⟨address, haddress, -⟩ := h.stored other row hrow
      have hentry' := (hindex.entries value address).2 ⟨hvalue, other, row, hrow, haddress, hfield⟩
      rw [hentry] at hentry'
      cases hentry'
  | some address =>
      obtain ⟨-, id, fields, hrow, haddress, hfield⟩ := (hindex.entries value address).1 hentry
      rw [Option.toList_some, IndexSet.anyDuplicate]
      by_cases hself : record.address = some address
      · rw [if_pos hself]
        refine ⟨false, rfl, by simp, ?_⟩
        rintro ⟨other, row, hother, hvalue', hne⟩
        have hid : id = record.id := h.address_inj haddress (hrecord.address.symm.trans hself)
        exact absurd ((h.sound.unique id fields hrow i column value hcolumn hindexed hfield other row
          hother hvalue').trans hid) hne
      · rw [if_neg hself, bind_ok (run_readRecord (h.storedAt hrow haddress) (h.reads hrow))]
        dsimp only
        rw [if_pos hfield]
        refine ⟨true, rfl, fun _ => ⟨id, fields, hrow, hfield, ?_⟩, fun _ => rfl⟩
        rintro rfl
        exact hself (hrecord.address.trans haddress)

/-- `HasDuplicate` finds a value that another row has. -/
theorem run_hasDuplicate (hrecord : table.Candidate record) {i : Nat} {column : Column} {value : Value}
    (hcolumn : table.schema.columns[i]? = some column) (hindexed : column.isIndexed = true)
    (hfield : record.fields[i]? = some value) (hvalue : value ≠ .null)
    (htype : IndexSet.HasType value column.columnType) :
    ∃ found, IndexSet.hasDuplicate Table.indexes table.schema record i value readRecord table =
        .ok found table ∧
      (found = true ↔
        ∃ other row, rows.row other = some row ∧ row[i]? = some value ∧ other ≠ record.id) := by
  obtain ⟨index, hlookup, hindex⟩ := h.indexes i column hcolumn hindexed
  obtain ⟨found, hrun, hfound⟩ := h.run_anyDuplicate hrecord hcolumn hindexed hvalue hindex
  refine ⟨found, ?_, hfound⟩
  have hmem : ((column, value), i) ∈ table.schema.valuesOf record.fields :=
    Schema.mem_valuesOf.2 ⟨hcolumn, hfield⟩
  obtain ⟨front, back, hsplit⟩ := List.append_of_mem hmem
  -- the other columns have other places
  have hplaces : ((table.schema.valuesOf record.fields).map Prod.snd).Nodup := by
    rw [Schema.valuesOf, List.zipIdx_map_snd]
    exact List.nodup_range'
  rw [hsplit, List.map_append, List.map_cons, List.nodup_append, List.nodup_cons] at hplaces
  obtain ⟨-, ⟨hback, -⟩, hfront⟩ := hplaces
  have hindexes : ∀ c ∈ table.schema.valuesOf record.fields, IndexSet.Visits c →
      (table.indexes.lookup c.1.1.name).isSome := by
    rintro ⟨⟨column', value'⟩, j⟩ hc hvisit
    obtain ⟨hcolumn', -⟩ := Schema.mem_valuesOf.1 hc
    obtain ⟨index', hlookup', -⟩ := h.indexes j column' hcolumn' hvisit.1
    exact Option.isSome_iff_exists.2 ⟨index', hlookup'⟩
  rw [hsplit] at hindexes
  rw [IndexSet.hasDuplicate, bind_ok (Schema.run_columnsOf hrecord.length table)]
  change IndexSet.forEach _ _ (table.schema.valuesOf record.fields) false table = _
  rw [hsplit, IndexSet.run_forEach_append (IndexSet.run_forEach_idle
      (fun c hc => hindexes c (List.mem_append_left _ hc)) fun c hc index' => ?_),
    IndexSet.run_forEach_visit ⟨hindexed, hvalue⟩ hlookup]
  · rw [if_neg (not_not.2 rfl), Index.search, IndexSet.key_of_hasType (by rwa [hindex.keyType])]
    refine (bind_ok hrun).trans ?_
    refine IndexSet.run_forEach_idle (fun c hc => hindexes c (by simp [hc])) fun c hc index' => ?_
    rw [if_pos]
    · rfl
    · intro heq
      exact hback (List.mem_map.2 ⟨c, hc, heq⟩)
  · rw [if_pos]
    · rfl
    · rintro rfl
      exact hfront c.2 (List.mem_map_of_mem hc) c.2 (by simp) rfl

/-- What `validate_record` asks of the value of a column. -/
def Accepts (rows : Rows) (id : UInt32) (c : (Column × Value) × Nat) : Prop :=
  checkType c.1.1 c.1.2 = .ok () ∧ (c.1.1.isIndexed = true →
    ∀ other row, rows.row other = some row → row[c.2]? = some c.1.2 → other = id)

theorem run_validateColumns (hrecord : table.Candidate record) {cs : List ((Column × Value) × Nat)}
    (hcs : ∀ c ∈ cs, c ∈ table.schema.valuesOf record.fields) :
    (validateColumns record cs table = .ok () table ∧ ∀ c ∈ cs, Accepts rows record.id c) ∨
      ((∃ what, validateColumns record cs table = .error (.exception what) table) ∧
        ∃ c ∈ cs, ¬ Accepts rows record.id c) := by
  induction cs with
  | nil => exact .inl ⟨rfl, by simp⟩
  | cons c cs ih =>
      obtain ⟨⟨column, value⟩, i⟩ := c
      obtain ⟨hmem, hrest⟩ := List.forall_mem_cons.1 hcs
      obtain ⟨hcolumn, hfield⟩ := Schema.mem_valuesOf.1 hmem
      have hnext : Accepts rows record.id ((column, value), i) →
          (validateColumns record cs table = .ok () table ∧
            ∀ c ∈ ((column, value), i) :: cs, Accepts rows record.id c) ∨
          ((∃ what, validateColumns record cs table = .error (.exception what) table) ∧
            ∃ c ∈ ((column, value), i) :: cs, ¬ Accepts rows record.id c) := by
        intro haccepts
        rcases ih hrest with ⟨hrun, hall⟩ | ⟨hrun, c, hc, hnot⟩
        · exact .inl ⟨hrun, List.forall_mem_cons.2 ⟨haccepts, hall⟩⟩
        · exact .inr ⟨hrun, c, List.mem_cons_of_mem _ hc, hnot⟩
      rw [validateColumns]
      cases hcheck : checkType column value with
      | error what =>
          refine .inr ⟨⟨what, rfl⟩, _, List.mem_cons_self, fun haccepts => ?_⟩
          rw [haccepts.1] at hcheck
          cases hcheck
      | ok _ =>
          rw [bind_ok (run_ofExcept_ok _ table)]
          by_cases hindexed : column.isIndexed = true
          · obtain ⟨hnotNull, htype⟩ := checkType_ok hcheck
            have hvalue := hnotNull (h.schema.notNull column (List.mem_of_getElem? hcolumn) hindexed)
            obtain ⟨found, hrun, hfound⟩ :=
              h.run_hasDuplicate hrecord hcolumn hindexed hfield hvalue (htype hvalue)
            rw [if_pos hindexed, run_get_bind, bind_ok hrun]
            cases found with
            | true =>
                obtain ⟨other, row, hother, hvalue', hne⟩ := hfound.1 rfl
                refine .inr ⟨?_, _, List.mem_cons_self, fun haccepts => hne ?_⟩
                · -- the text of the value is looked up for the message
                  rw [if_pos rfl]
                  cases value with
                  | null => exact ⟨_, rfl⟩
                  | int n => exact ⟨_, rfl⟩
                  | string id =>
                      dsimp only
                      rw [run_get_bind, Interner.view]
                      cases table.strings.idToView.lookup id.value with
                      | none => exact ⟨_, rfl⟩
                      | some view => exact ⟨_, rfl⟩
                · exact haccepts.2 hindexed other row hother hvalue'
            | false =>
                refine hnext ⟨hcheck, fun _ other row hother hvalue' => ?_⟩
                by_contra hne
                exact absurd (hfound.2 ⟨other, row, hother, hvalue', hne⟩) (by simp)
          · rw [if_neg hindexed]
            exact hnext ⟨hcheck, fun hindexed' => absurd hindexed' hindexed⟩

/-- `validate_record` accepts the records that can be in the table, and no others. -/
theorem run_validateRecord (hrecord : table.Candidate record) :
    (validateRecord record table = .ok () table ∧ table.schema.Allows record.fields ∧
        rows.Admits table.schema record.id record.fields) ∨
      ((∃ what, validateRecord record table = .error (.exception what) table) ∧
        ¬ (table.schema.Allows record.fields ∧ rows.Admits table.schema record.id record.fields)) := by
  have hrun : validateRecord record table =
      validateColumns record (table.schema.valuesOf record.fields) table := by
    rw [validateRecord, run_get_bind, bind_ok (Schema.run_columnsOf hrecord.length table)]
    rfl
  rw [hrun]
  rcases h.run_validateColumns hrecord (fun _ hc => hc) with ⟨hok, hall⟩ | ⟨herror, c, hc, hnot⟩
  · refine .inl ⟨hok, ⟨hrecord.length, fun i column value hcolumn hfield => ?_⟩,
      fun i column value hcolumn hindexed hfield => ?_⟩
    · exact (hall _ (Schema.mem_valuesOf.2 ⟨hcolumn, hfield⟩)).1
    · exact (hall _ (Schema.mem_valuesOf.2 ⟨hcolumn, hfield⟩)).2 hindexed
  · obtain ⟨⟨column, value⟩, i⟩ := c
    obtain ⟨hcolumn, hfield⟩ := Schema.mem_valuesOf.1 hc
    refine .inr ⟨herror, fun ⟨hallows, hadmits⟩ => hnot ⟨?_, fun hindexed => ?_⟩⟩
    · exact hallows.types i column value hcolumn hfield
    · exact hadmits i column value hcolumn hindexed hfield

end Represents

end Table

end QuasarDB.Storage
