import QuasarDB.Storage.Proofs.Assignments
import QuasarDB.Storage.Proofs.Histories

set_option autoImplicit false

/-! # The constraints of a schema

Whatever is called on a table, and whether it is accepted or rejected: the values of the rows have the
types of their columns, there is a value where there has to be one, and no value of an indexed column is
there twice. -/

namespace QuasarDB.Storage

open Prog

namespace Table

variable {table table' : Table} {rows : Rows} {stack : List Entry} {n : Nat} {record : Record}

/-! ## Calls -/

/-- Records with other values, each of a record that was just read, and each of another row. -/
structure Changes (table : Table) (olds records : List Record) : Prop where
  gives : ∀ old ∈ olds, table.Gives old
  nodup : (olds.map Record.id).Nodup
  reassigned : List.Forall₂ (fun old record => old.Reassigned record table.strings.toInterner) olds records

/-- The tables that calls lead to, with a bound on the number of records that were inserted. A call
    returns, or it throws, but not because a record is too large for a page; `update_multiple` returns with
    the errors of the records that were not updated. -/
inductive Called : Nat → Table → Prop
  | new {schema : Schema} (h : schema.WellFormed) (hcount : schema.recordIdCount = 0) :
      Called 0 (Table.new schema)
  | insert {n : Nat} {table table' : Table} {now : Track.Time} {values : List Value}
      {columnNames : List String} {record : Record} (h : Called n table)
      (hknown : ∀ value ∈ values, table.strings.toInterner.Knows value)
      (hrun : insertRecord now values columnNames table = .ok record table') : Called (n + 1) table'
  | insertError {n : Nat} {table table' : Table} {now : Track.Time} {values : List Value}
      {columnNames : List String} {what : String} (h : Called n table)
      (hknown : ∀ value ∈ values, table.strings.toInterner.Knows value)
      (hrun : insertRecord now values columnNames table = .error (.exception what) table')
      (hwhat : what ≠ tooLarge) : Called (n + 1) table'
  | insertMultiple {n : Nat} {table table' : Table} {now : Nat → Track.Time}
      {rows : List (List Value)} {columnNames : List String} {records : List Record} (h : Called n table)
      (hknown : ∀ values ∈ rows, ∀ value ∈ values, table.strings.toInterner.Knows value)
      (hrun : Table.insertMultiple now columnNames rows table = .ok records table') :
      Called (n + rows.length) table'
  | insertMultipleError {n : Nat} {table table' : Table} {now : Nat → Track.Time}
      {rows : List (List Value)} {columnNames : List String} {what : String} (h : Called n table)
      (hknown : ∀ values ∈ rows, ∀ value ∈ values, table.strings.toInterner.Knows value)
      (hrun : Table.insertMultiple now columnNames rows table = .error (.exception what) table')
      (hwhat : what ≠ tooLarge) : Called (n + rows.length) table'
  | update {n : Nat} {table table' : Table} {now : Track.Time} {old record : Record}
      {address : RecordAddress} (h : Called n table) (hgives : table.Gives old)
      (hrecord : old.Reassigned record table.strings.toInterner)
      (hrun : updateRecord now record table = .ok address table') : Called n table'
  | updateError {n : Nat} {table table' : Table} {now : Track.Time} {old record : Record}
      {what : String} (h : Called n table) (hgives : table.Gives old)
      (hrecord : old.Reassigned record table.strings.toInterner)
      (hrun : updateRecord now record table = .error (.exception what) table')
      (hwhat : what ≠ tooLarge) : Called n table'
  | updateMultiple {n : Nat} {table table' : Table} {now : Nat → Track.Time}
      {olds records : List Record} {errors : List String} (h : Called n table)
      (hchanges : table.Changes olds records)
      (hrun : Table.updateMultiple now records table = .ok errors table')
      (herrors : tooLarge ∉ errors) : Called n table'
  | delete {n : Nat} {table table' : Table} {now : Track.Time} {record : Record} (h : Called n table)
      (hgives : table.Gives record) (hrun : deleteRecord now record table = .ok () table') :
      Called n table'
  | revert {n : Nat} {table table' : Table} {time : List UInt8} (h : Called n table)
      (hrun : Table.revert time table = .ok () table') : Called n table'
  | intern {n : Nat} {table : Table} (h : Called n table) (str : String) :
      Called n { table with strings := (StringStore.intern str).after table.strings }

/-! ## What the calls leave -/

/-- There are rows that the table tracks, of at most this many ids. -/
def TracksUpTo (n : Nat) (table : Table) : Prop :=
  ∃ rows stack, table.Tracks rows stack ∧ rows.count ≤ n

theorem TracksUpTo.mono {m : Nat} (h : TracksUpTo n table) (hle : n ≤ m) : TracksUpTo m table := by
  obtain ⟨rows, stack, htracks, hcount⟩ := h
  exact ⟨rows, stack, htracks, hcount.trans hle⟩

/-- An insertion returns or throws. -/
theorem Tracks.insertRecord_tracks (h : table.Tracks rows stack) (hcount : rows.count + 1 < 2 ^ 32)
    (now : Track.Time) {values : List Value} (columnNames : List String)
    (hknown : ∀ value ∈ values, table.strings.toInterner.Knows value) :
    (insertRecord now values columnNames).Post table
      (fun _ table' => table.strings.Grows table'.strings ∧ ∃ rows' stack',
        table'.Tracks rows' stack' ∧ rows'.count = rows.count + 1)
      (fun e table' => IsTooLarge e ∨ table'.Tracks rows stack) := by
  refine Post.mono (h.insertRecord_post hcount now columnNames hknown) ?_ ?_
  · rintro record table' ⟨hgrows, -, -, htracks⟩
    exact ⟨hgrows, _, _, htracks, rfl⟩
  · rintro e table' (⟨hgrows, -⟩ | ⟨hlarge, -⟩)
    · exact .inr (hgrows.tracks h)
    · exact .inl hlarge

/-- The rows are inserted one after the other. -/
theorem Tracks.insertMultiple_tracks {now : Nat → Track.Time} {columnNames : List String}
    {values : List (List Value)} (h : table.Tracks rows stack)
    (hcount : rows.count + values.length < 2 ^ 32)
    (hknown : ∀ row ∈ values, ∀ value ∈ row, table.strings.toInterner.Knows value) :
    (insertMultiple now columnNames values).Post table
      (fun _ table' => TracksUpTo (rows.count + values.length) table')
      (fun e table' => IsTooLarge e ∨ TracksUpTo (rows.count + values.length) table') := by
  induction values generalizing table rows stack now with
  | nil => exact Post.pure ⟨rows, stack, h, Nat.le_refl _⟩
  | cons row values ih =>
      obtain ⟨hrow, hothers⟩ := List.forall_mem_cons.1 hknown
      rw [List.length_cons] at hcount ⊢
      rw [insertMultiple]
      refine Post.bind (Post.mono (h.insertRecord_tracks (by omega) (now 0) columnNames hrow) ?_ ?_)
      · rintro record table₁ ⟨hgrows, rows', stack', htracks, hcount'⟩
        refine Post.bind (Post.mono (ih htracks (by omega) fun r hr => hgrows.knows (hothers r hr)) ?_ ?_)
        · intro records table₂ htracks'
          exact Post.pure (htracks'.mono (by omega))
        · rintro e table₂ (hlarge | htracks')
          · exact .inl hlarge
          · exact .inr (htracks'.mono (by omega))
      · rintro e table₁ (hlarge | htracks)
        · exact .inl hlarge
        · exact .inr ⟨rows, stack, htracks, by omega⟩

/-- The records of different rows are updated one after the other, unless one is rejected. The induction
    is on the list, each of the others can still be tried after an update. -/
theorem Tracks.of_updateMultiple {now : Nat → Track.Time} {changed : List Record}
    {errors : List String} (h : table.Tracks rows stack) (hnodup : (changed.map Record.id).Nodup)
    (hchanged : ∀ record ∈ changed, Executor.Changed table rows record)
    (hrun : updateMultiple now changed table = .ok errors table') (herrors : tooLarge ∉ errors) :
    TracksUpTo rows.count table' := by
  induction changed generalizing table rows stack now errors with
  | nil =>
      cases hrun
      exact ⟨rows, stack, h, Nat.le_refl _⟩
  | cons record changed ih =>
      rw [List.map_cons, List.nodup_cons] at hnodup
      obtain ⟨hfresh, hnodup⟩ := hnodup
      obtain ⟨hrecord, hothers⟩ := List.forall_mem_cons.1 hchanged
      obtain ⟨fields, hrow⟩ := Option.isSome_iff_exists.1 hrecord.row
      rw [updateMultiple] at hrun
      obtain ⟨error, table₁, hcatch, hrest⟩ := Prog.bind_eq_ok.1 hrun
      obtain ⟨others, table₂, hmultiple, hpure⟩ := Prog.bind_eq_ok.1 hrest
      obtain ⟨rfl, rfl⟩ := Prog.pure_eq_ok.1 hpure
      rw [List.mem_append, not_or] at herrors
      cases hupdate : updateRecord (now 0) record table with
      | ok address t =>
          rw [Prog.catchException, bind_ok hupdate] at hcatch
          cases hcatch
          obtain ⟨htracks, hstrings, hschema, haddresses⟩ :=
            h.of_updateRecord hrow hrecord.candidate hrecord.known hupdate
          have hstill : ∀ other ∈ changed,
              Executor.Changed table₁ (rows.set record.id (some record.fields)) other := fun other hmem =>
            (hothers other hmem).after_update (fun heq => hfresh (heq ▸ List.mem_map_of_mem hmem))
              hstrings hschema haddresses
          have hdone := ih htracks hnodup hstill hmultiple herrors.2
          exact hdone
      | error e t =>
          rw [Prog.catchException, bind_error hupdate] at hcatch
          cases e with
          | exception what =>
              cases hcatch
              have hwhat : what ≠ tooLarge := fun heq =>
                herrors.1 (by rw [heq]; exact List.mem_singleton_self _)
              obtain rfl := h.eq_of_updateRecord_error hrow hrecord.candidate hrecord.known hwhat hupdate
              exact ih h hnodup hothers hmultiple herrors.2
          | _ => cases hcatch

/-- Records of different rows, with other values, can be tried. -/
theorem Tracks.changed (h : table.Tracks rows stack) {olds records : List Record}
    (hchanges : table.Changes olds records) :
    (records.map Record.id).Nodup ∧ ∀ record ∈ records, Executor.Changed table rows record := by
  obtain ⟨hgives, hnodup, hreassigned⟩ := hchanges
  have hids : records.map Record.id = olds.map Record.id := by
    induction hreassigned with
    | nil => rfl
    | cons hrecord _ ih =>
        rw [List.map_cons, List.map_cons, hrecord.id, ih (List.forall_mem_cons.1 hgives).2
          (List.nodup_cons.1 hnodup).2]
  refine ⟨hids ▸ hnodup, fun record hmem => ?_⟩
  obtain ⟨old, hold, hrecord⟩ := hreassigned.flip.exists_of_mem hmem
  have his := h.gives_iff.1 (hgives old hold)
  refine ⟨?_, h.candidate his hrecord, hrecord.known⟩
  rw [hrecord.id, his.row]
  rfl

theorem Called.tracks (h : Called n table) (hn : n < 2 ^ 32) : TracksUpTo n table := by
  induction h with
  | new h hcount => exact ⟨_, _, tracks_new h hcount, Nat.le_refl _⟩
  | insert h hknown hrun ih =>
      obtain ⟨rows, stack, htracks, hcount⟩ := ih (by omega)
      obtain ⟨-, rows', stack', htracks', hcount'⟩ :=
        (htracks.insertRecord_tracks (by omega) _ _ hknown).of_ok hrun
      exact ⟨rows', stack', htracks', by omega⟩
  | insertError h hknown hrun hwhat ih =>
      obtain ⟨rows, stack, htracks, hcount⟩ := ih (by omega)
      rcases (htracks.insertRecord_tracks (by omega) _ _ hknown).of_error hrun with hlarge | htracks'
      · exact absurd (hlarge _ rfl) hwhat
      · exact ⟨rows, stack, htracks', by omega⟩
  | insertMultiple h hknown hrun ih =>
      obtain ⟨rows, stack, htracks, hcount⟩ := ih (by omega)
      exact ((htracks.insertMultiple_tracks (by omega) hknown).of_ok hrun).mono (by omega)
  | insertMultipleError h hknown hrun hwhat ih =>
      obtain ⟨rows, stack, htracks, hcount⟩ := ih (by omega)
      rcases (htracks.insertMultiple_tracks (by omega) hknown).of_error hrun with hlarge | htracks'
      · exact absurd (hlarge _ rfl) hwhat
      · exact htracks'.mono (by omega)
  | update h hgives hrecord hrun ih =>
      obtain ⟨rows, stack, htracks, hcount⟩ := ih hn
      have hold := htracks.gives_iff.1 hgives
      have hrow := hold.row
      rw [← hrecord.id] at hrow
      obtain ⟨htracks', -⟩ :=
        htracks.of_updateRecord hrow (htracks.candidate hold hrecord) hrecord.known hrun
      exact ⟨_, _, htracks', hcount⟩
  | updateError h hgives hrecord hrun hwhat ih =>
      obtain ⟨rows, stack, htracks, hcount⟩ := ih hn
      have hold := htracks.gives_iff.1 hgives
      have hrow := hold.row
      rw [← hrecord.id] at hrow
      obtain rfl := htracks.eq_of_updateRecord_error hrow (htracks.candidate hold hrecord)
        hrecord.known hwhat hrun
      exact ⟨rows, stack, htracks, hcount⟩
  | updateMultiple h hchanges hrun herrors ih =>
      obtain ⟨rows, stack, htracks, hcount⟩ := ih hn
      obtain ⟨hnodup, hchanged⟩ := htracks.changed hchanges
      exact (htracks.of_updateMultiple hnodup hchanged hrun herrors).mono hcount
  | delete h hgives hrun ih =>
      obtain ⟨rows, stack, htracks, hcount⟩ := ih hn
      obtain ⟨table'', hrun', htracks', -⟩ := htracks.run_deleteRecord _ (htracks.gives_iff.1 hgives)
      rw [hrun] at hrun'
      cases hrun'
      exact ⟨_, _, htracks', hcount⟩
  | revert h hrun ih =>
      obtain ⟨rows, stack, htracks, hcount⟩ := ih hn
      obtain ⟨table'', hrun', htracks', -⟩ := htracks.run_revert _
      rw [hrun] at hrun'
      cases hrun'
      exact ⟨_, _, htracks', (count_undoAll_le _ _).trans hcount⟩
  | intern h str ih =>
      obtain ⟨rows, stack, htracks, hcount⟩ := ih hn
      have hpost := StringStore.intern_along str htracks.strings
      exact ⟨rows, stack, htracks.grows hpost.of_after, hcount⟩

/-! ## Constraints -/

end Table

end QuasarDB.Storage
