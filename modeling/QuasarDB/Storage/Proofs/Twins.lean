import QuasarDB.Library.Lockstep
import QuasarDB.Storage.Table

set_option autoImplicit false

/-! # Tables that cannot be told apart

Two tables with the same files, of which the streams of the journals may stand at different places
and the maps of the indexes may be built in another order. Every operation of the journal looks for
its place first, so all operations give the same on both and leave two such tables again. -/

namespace FileStream

open Prog

/-- Streams on the same content that can be used alike. -/
structure Alike (s t : FileStream) : Prop where
  bytes : s.bytes = t.bytes
  failed : s.failed = t.failed
  isOpen : s.isOpen = t.isOpen

/-- They also stand at the same place, or have failed. -/
structure Aligned (s t : FileStream) : Prop extends Alike s t where
  position : s.failed = false → s.position = t.position

theorem aligned_self (s : FileStream) : Aligned s s := ⟨⟨rfl, rfl, rfl⟩, fun _ => rfl⟩

variable {s t : FileStream}

/-- Streams that stand at the same place are the same. -/
theorem Aligned.eq (h : Aligned s t) (hfailed : s.failed = false) : s = t := by
  obtain ⟨bytes, position, failed, isOpen⟩ := s
  obtain ⟨bytes', position', failed', isOpen'⟩ := t
  obtain ⟨⟨rfl, rfl, rfl⟩, hposition⟩ := h
  obtain rfl := hposition hfailed
  rfl

/-- A stream that has failed does not stand anywhere. -/
theorem Alike.aligned (h : Alike s t) (hfailed : s.failed = true) : Aligned s t where
  toAlike := h
  position := fun hnot => absurd (hfailed.symm.trans hnot) (by decide)

theorem alike_fail (h : Alike s t) :
    Aligned { s with failed := true } { t with failed := true } :=
  Alike.aligned ⟨h.bytes, rfl, h.isOpen⟩ rfl

/-- Another place is looked for. -/
theorem lockstep_seek (offset : Int) : Lockstep Alike Aligned (seek offset) (seek offset) := by
  apply Lockstep.modify
  intro s t h
  obtain ⟨bytes, position, failed, isOpen⟩ := s
  obtain ⟨_, position', _, _⟩ := t
  obtain ⟨rfl, rfl, rfl⟩ := h
  dsimp only
  split
  · exact Alike.aligned ⟨rfl, rfl, rfl⟩ ‹_›
  · split
    · exact Alike.aligned ⟨rfl, rfl, rfl⟩ rfl
    · exact aligned_self _

theorem lockstep_seekEnd : Lockstep Alike Aligned seekEnd seekEnd := by
  apply Lockstep.modify
  intro s t h
  obtain ⟨bytes, position, failed, isOpen⟩ := s
  obtain ⟨_, position', _, _⟩ := t
  obtain ⟨rfl, rfl, rfl⟩ := h
  dsimp only
  split
  · exact Alike.aligned ⟨rfl, rfl, rfl⟩ ‹_›
  · split
    · exact Alike.aligned ⟨rfl, rfl, rfl⟩ rfl
    · exact aligned_self _

/-- What is done with streams that have not failed is the same, and those that have failed do
    nothing. -/
theorem respects_of_failed {α : Type} {x : Prog FileStream α}
    (hx : ∀ s t, Alike s t → s.failed = true → Same Aligned (x s) (x t)) :
    Respects Aligned x := by
  intro s t h
  by_cases hfailed : s.failed = true
  · exact hx s t h.toAlike hfailed
  · rw [h.eq (Bool.eq_false_of_not_eq_true hfailed)]
    cases x t with
    | ok a u => exact ⟨rfl, aligned_self u⟩
    | error e u => exact ⟨rfl, aligned_self u⟩

theorem respects_tell : Respects Aligned tell := by
  apply respects_of_failed
  intro s t h hfailed
  have hfailed' : t.failed = true := h.failed.symm.trans hfailed
  rw [tell, run_get_bind, run_get_bind, hfailed, hfailed']
  exact ⟨rfl, h.aligned hfailed⟩

theorem respects_read (count : Nat) : Respects Aligned (read count) := by
  apply respects_of_failed
  intro s t h hfailed
  have hfailed' : t.failed = true := h.failed.symm.trans hfailed
  rw [read, run_get_bind, run_get_bind, hfailed, hfailed']
  exact ⟨rfl, alike_fail h⟩

theorem respects_write (data : List UInt8) : Respects Aligned (write data) := by
  apply respects_of_failed
  intro s t h hfailed
  have hfailed' : t.failed = true := h.failed.symm.trans hfailed
  rw [write, run_modify, run_modify, hfailed, hfailed']
  exact ⟨rfl, alike_fail h⟩

theorem respects_closeIfOpen : Respects Aligned closeIfOpen :=
  Lockstep.modify fun _ _ h => ⟨⟨h.bytes, h.failed, rfl⟩, h.position⟩

theorem respects_resize (size : Nat) : Respects Aligned (resize size) :=
  Lockstep.modify fun _ _ h => ⟨⟨by rw [h.bytes], h.failed, h.isOpen⟩, h.position⟩

theorem respects_reopen : Respects Aligned reopen := by
  apply Lockstep.modify
  intro s t h
  rw [h.bytes]
  exact aligned_self _

end FileStream

namespace QuasarDB.Storage

open Prog
open FileStream (lockstep_seek lockstep_seekEnd respects_tell respects_read respects_write
  respects_closeIfOpen respects_resize respects_reopen)

/-! ## Records -/

section Records

variable {σ : Type} {R : σ → σ → Prop}

theorem Record.respects_ofCount (id : UInt32) (valuesCount : Nat) :
    Respects R (Record.ofCount id valuesCount) :=
  Lockstep.ite (.throw _) (.pure _)

theorem Record.respects_serialize (record : Record) : Respects R record.serialize :=
  (Lockstep.assert _ _).bind fun _ => .pure _

theorem Record.respects_getAddress (record : Record) :
    Respects R record.getAddress := by
  unfold Record.getAddress
  cases record.address with
  | none => exact .throw _
  | some address => exact .pure address

theorem Record.respects_fromBinary (data : List UInt8) (size recordId : UInt32) (schema : Schema)
    (interner : Interner) : Respects R (Record.fromBinary data size recordId schema interner) := by
  intro s t h
  unfold Record.fromBinary
  cases Record.readValues interner schema.size data with
  | error failure rest => exact ⟨rfl, h⟩
  | ok values rest =>
      dsimp only
      split
      · exact ⟨rfl, h⟩
      · exact ⟨rfl, h⟩

theorem Schema.respects_columnsOf (schema : Schema) (record : Record) :
    Respects R (schema.columnsOf record) :=
  Lockstep.ite (.throw _) (.pure _)

theorem Interner.respects_view (interner : Interner) (id : StringId) :
    Respects R (interner.view id) := by
  unfold Interner.view
  cases interner.idToView.lookup id.value with
  | none => exact .throw _
  | some view => exact .pure view

theorem TablePage.respects_readRecord (slotIdx : Nat) (schema : Schema) (interner : Interner)
    (cells : List Cell) : Respects R (TablePage.readRecord slotIdx schema interner cells) := by
  unfold TablePage.readRecord
  cases cells[slotIdx]? with
  | none => exact .pure none
  | some cell =>
      refine Lockstep.ite (.pure none) ?_
      exact (Record.respects_fromBinary _ _ _ _ _).bind fun _ => .pure _

end Records

/-! ## Journals -/

namespace Journal

variable {α : Type}

/-- Journals with a relation between their streams. -/
structure With (S : FileStream → FileStream → Prop) (journal other : Journal) : Prop where
  file : S journal.file other.file
  pos : journal.pos = other.pos

/-- Journals that differ in where their streams stand. -/
abbrev Alike : Journal → Journal → Prop := With FileStream.Alike

/-- Journals whose streams stand at the same place. -/
abbrev Aligned : Journal → Journal → Prop := With FileStream.Aligned

theorem With.alike {journal other : Journal} (h : Aligned journal other) : Alike journal other :=
  ⟨h.file.toAlike, h.pos⟩

theorem lockstep_onFile {S S' : FileStream → FileStream → Prop} {x : Prog FileStream α}
    (h : Lockstep S S' x x) : Lockstep (With S) (With S') (onFile x) (onFile x) :=
  Lockstep.on h (fun _ _ hj => hj.file) fun _ _ _ _ hj hS => ⟨hS, hj.pos⟩

theorem respects_truncateToLast : Respects Aligned truncateToLast := by
  apply Lockstep.get_bind
  intro journal other h
  rw [h.pos]
  apply (lockstep_onFile respects_closeIfOpen).bind
  intro _
  apply (Lockstep.throwIf _ _).bind
  intro _
  apply (lockstep_onFile (respects_resize _)).bind
  intro _
  apply (lockstep_onFile respects_reopen).bind
  intro _
  exact (lockstep_onFile (lockstep_seek _)).mono (fun _ _ h => h.alike) fun _ _ h => h

theorem lockstep_cutOff : Lockstep Alike Aligned cutOff cutOff := by
  refine (lockstep_onFile lockstep_seekEnd).bind_mono (fun _ => ?_) fun _ _ h => h
  apply (lockstep_onFile respects_tell).bind
  intro finish
  apply Lockstep.get_bind
  intro journal other h
  rw [h.pos]
  exact Lockstep.ite respects_truncateToLast (.pure ())

theorem respects_writeData (data : List UInt8) :
    Respects FileStream.Aligned (writeData data) := by
  refine Lockstep.ite ?_ (.pure ())
  exact (respects_write _).bind fun _ => respects_write _

theorem respects_writeTrack (now : Track.Time) (type : Track.Kind) (recordId : UInt32)
    (data : List UInt8) :
    Respects Alike (writeTrack now type recordId data) := by
  -- `cutOff` looks for the end of the file
  refine lockstep_cutOff.bind_mono (fun _ => ?_) fun _ _ h => h.alike
  refine Lockstep.mono (Q := Aligned) ?_ (fun _ _ h => h) fun _ _ h => h.alike
  apply (lockstep_onFile (respects_write _)).bind
  intro _
  apply (lockstep_onFile (respects_write _)).bind
  intro _
  apply (lockstep_onFile (respects_write _)).bind
  intro _
  apply (lockstep_onFile (respects_writeData data)).bind
  intro _
  apply (lockstep_onFile (respects_write _)).bind
  intro _
  apply Lockstep.get_bind
  intro journal other h
  rw [h.file.failed]
  apply (Lockstep.throwIf _ _).bind
  intro _
  have hend : Respects Aligned (onFile FileStream.seekEnd) :=
    (lockstep_onFile lockstep_seekEnd).mono (fun _ _ h => h.alike) fun _ _ h => h
  apply hend.bind
  intro _
  apply (lockstep_onFile respects_tell).bind
  intro pos
  exact Lockstep.bind (Lockstep.modify fun _ _ h => ⟨h.file, rfl⟩) fun _ => .pure _

theorem respects_readBytes (count : Nat) : Respects Aligned (readBytes count) := by
  apply (lockstep_onFile (respects_read count)).bind
  intro data
  exact Lockstep.ite (.throw _) (.pure _)

theorem respects_readWord : Respects Aligned readWord :=
  (respects_readBytes 4).bind fun _ => .pure _

theorem respects_readBuffer (count : Nat) :
    Respects Aligned (readBuffer count) :=
  (lockstep_onFile (respects_read count)).bind fun _ => .pure _

theorem respects_nothing {R : Journal → Journal → Prop} : Respects R nothing :=
  (Record.respects_ofCount 0 1).bind fun _ => .pure _

theorem respects_readTrack (writedTime : List UInt8) (schema : Schema) (interner : Interner) :
    Respects Aligned (readTrack writedTime schema interner) := by
  apply respects_readWord.bind
  intro recordId
  apply (respects_readBytes 1).bind
  intro type
  refine (Record.respects_ofCount recordId 1).bind fun record => Lockstep.ite ?_ (.pure _)
  apply respects_readWord.bind
  intro dataSize
  apply (respects_readBuffer _).bind
  intro data
  exact (Record.respects_fromBinary _ _ _ _ _).bind fun _ => .pure _

theorem respects_revertLast (time : List UInt8) (schema : Schema) (interner : Interner) :
    Respects Alike (revertLast time schema interner) := by
  apply Lockstep.get_bind
  intro journal other h
  rw [h.pos]
  refine Lockstep.ite respects_nothing ?_
  -- from the first `seekg` on the streams stand at the same place
  refine (lockstep_onFile (lockstep_seek _)).bind_mono (fun _ => ?_) fun _ _ h => h.alike
  refine Lockstep.mono (Q := Aligned) ?_ (fun _ _ h => h) fun _ _ h => h.alike
  apply respects_readWord.bind
  intro trackSize
  have hback : ∀ offset, Respects Aligned (onFile (FileStream.seek offset)) := fun offset =>
    (lockstep_onFile (lockstep_seek offset)).mono (fun _ _ h => h.alike) fun _ _ h => h
  have hpos : ∀ pos, Lockstep Aligned Aligned (modify fun journal : Journal => { journal with pos })
      (modify fun journal => { journal with pos }) := fun pos =>
    Lockstep.modify fun _ _ h => ⟨h.file, rfl⟩
  apply (hback _).bind
  intro _
  apply (lockstep_onFile respects_tell).bind
  intro pos
  apply (hpos pos).bind
  intro _
  apply (respects_readBuffer _).bind
  intro writedTime
  exact Lockstep.ite ((hpos _).bind fun _ => respects_nothing) (respects_readTrack _ _ _)

theorem respects_saveInsertion (now : Track.Time) (record : Record) :
    Respects Alike (saveInsertion now record) :=
  respects_writeTrack now .delete record.id []

theorem respects_saveUpdation (now : Track.Time) (oldRecord : Record) :
    Respects Alike (saveUpdation now oldRecord) :=
  (Record.respects_serialize oldRecord).bind fun data =>
    respects_writeTrack now .update oldRecord.id data

theorem respects_saveDeletion (now : Track.Time) (record : Record) :
    Respects Alike (saveDeletion now record) :=
  (Record.respects_serialize record).bind fun data => respects_writeTrack now .insert record.id data

end Journal

/-! ## Indexes -/

namespace IndexSet

/-- The same indexes, each with the keys of its column. -/
structure Alike (columns : List Column) (indexes other : IndexSet) : Prop where
  lookup : ∀ name, indexes.lookup name = other.lookup name
  keyType : ∀ name, (other.lookup name).map Index.keyType =
    ((openNew { columns }).lookup name).map Index.keyType

variable {σ β : Type} {columns : List Column} {indexes other : IndexSet} {R : σ → σ → Prop}

theorem indexOf_congr {name : String} (h : indexes.lookup name = other.lookup name) :
    (indexes.indexOf name : Prog σ Index) = other.indexOf name := by
  rw [indexOf, h, indexOf]

theorem respects_indexOf (name : String) :
    Respects R (indexes.indexOf name) := by
  unfold indexOf
  cases indexes.lookup name with
  | none => exact .throw _
  | some index => exact .pure index

theorem find_congr (schema : Schema) (columnName : String) (value : Value)
    (h : ∀ name, indexes.lookup name = other.lookup name) :
    (find schema columnName value indexes : Prog σ _) = find schema columnName value other := by
  unfold find
  rw [indexOf_congr (h columnName)]

theorem respects_find (schema : Schema) (columnName : String) (value : Value) :
    Respects R (find schema columnName value indexes) := by
  unfold find
  cases schema.columns.find? fun column => column.name == columnName with
  | none => exact .throw _
  | some column =>
      refine Lockstep.ite (.pure none) (Lockstep.ite (.pure none) ?_)
      apply (respects_indexOf columnName).bind
      intro index
      exact (Lockstep.ofExcept _).bind fun _ => .pure _

/-- An index is exchanged for one with the same keys. -/
theorem Alike.insert (h : Alike columns indexes other) {name : String} {index : Index}
    (htype : ((openNew { columns }).lookup name).map Index.keyType = some index.keyType) :
    Alike columns (AList.insert name index indexes) (AList.insert name index other) where
  lookup := fun name' => by
    by_cases hname : name' = name
    · rw [hname, AList.lookup_insert, AList.lookup_insert]
    · rw [AList.lookup_insert_ne hname, AList.lookup_insert_ne hname, h.lookup]
  keyType := fun name' => by
    by_cases hname : name' = name
    · rw [hname, AList.lookup_insert, htype]
      rfl
    · rw [AList.lookup_insert_ne hname, h.keyType]

theorem respects_change {name : String} {f : Index → Except String Index}
    (hf : ∀ index index', f index = .ok index' → index'.keyType = index.keyType) :
    Respects (Alike columns) (change name f) := by
  apply Lockstep.get_bind
  intro indexes other h
  rw [indexOf_congr (h.lookup name), indexOf]
  cases hlookup : other.lookup name with
  | none => exact Lockstep.throw _
  | some index =>
      have htype := h.keyType name
      rw [hlookup] at htype
      dsimp only
      rw [pure_bind]
      cases hindex : f index with
      | error what => exact Lockstep.throw _
      | ok index' =>
          refine Lockstep.modify fun indexes other h => h.insert ?_
          rw [hf index index' hindex, ← htype]
          rfl

theorem keyType_insert {value : Value} {address : RecordAddress} {index index' : Index}
    (h : Index.insert value address index = .ok index') : index'.keyType = index.keyType := by
  unfold Index.insert at h
  cases hkey : index.key value with
  | error what =>
      rw [hkey] at h
      cases h
  | ok key =>
      rw [hkey] at h
      cases h
      rfl

theorem keyType_remove {value : Value} {index index' : Index}
    (h : Index.remove value index = .ok index') : index'.keyType = index.keyType := by
  unfold Index.remove at h
  cases hkey : index.key value with
  | error what =>
      rw [hkey] at h
      cases h
  | ok key =>
      rw [hkey] at h
      cases h
      rfl

theorem respects_forEach {view : σ → IndexSet}
    {visitor : Nat → Column → Value → Index → β → Prog σ β}
    (hview : ∀ s t, R s t → ∀ name, (view s).lookup name = (view t).lookup name)
    (hvisitor : ∀ i column value index b,
      Respects R (visitor i column value index b))
    (columns : List ((Column × Value) × Nat)) :
    ∀ b, Respects R (forEach view visitor columns b) := by
  induction columns with
  | nil => exact fun b => .pure b
  | cons first columns ih =>
      obtain ⟨⟨column, value⟩, i⟩ := first
      intro b
      refine Lockstep.ite (ih b) (Lockstep.get_bind fun s t h => ?_)
      rw [indexOf_congr (hview s t h column.name)]
      apply (respects_indexOf column.name).bind
      intro index
      exact (hvisitor i column value index b).bind fun b' => ih b'

theorem respects_anyDuplicate {reader : RecordAddress → Prog σ (Option Record)}
    (hreader : ∀ address, Respects R (reader address)) (record : Record)
    (columnIndex : Nat) (value : Value) (addresses : List RecordAddress) :
    Respects R (anyDuplicate record columnIndex value reader addresses) := by
  induction addresses with
  | nil => exact .pure false
  | cons address addresses ih =>
      refine Lockstep.ite ih ((hreader address).bind fun found => ?_)
      cases found with
      | none => exact ih
      | some existing => exact Lockstep.ite (.pure true) ih

theorem respects_hasDuplicate {view : σ → IndexSet}
    {reader : RecordAddress → Prog σ (Option Record)}
    (hview : ∀ s t, R s t → ∀ name, (view s).lookup name = (view t).lookup name)
    (hreader : ∀ address, Respects R (reader address)) (schema : Schema)
    (record : Record) (columnIndex : Nat) (value : Value) :
    Respects R (hasDuplicate view schema record columnIndex value reader) := by
  apply (Schema.respects_columnsOf schema record).bind
  intro columns
  refine respects_forEach hview (fun i _ indexedValue index found => ?_) _ false
  refine Lockstep.ite (.pure found) ((Lockstep.ofExcept _).bind fun addresses => ?_)
  exact respects_anyDuplicate hreader record columnIndex value addresses

theorem respects_insert (schema : Schema) (record : Record) :
    Respects (Alike columns) (insert schema record) := by
  apply (Schema.respects_columnsOf schema record).bind
  intro _
  refine respects_forEach (fun _ _ h => h.lookup) (fun _ _ _ _ _ => ?_) _ ()
  refine (Record.respects_getAddress record).bind fun _ => respects_change ?_
  exact fun _ _ => keyType_insert

theorem respects_remove (schema : Schema) (record : Record) :
    Respects (Alike columns) (remove schema record) := by
  apply (Schema.respects_columnsOf schema record).bind
  intro _
  refine respects_forEach (fun _ _ h => h.lookup) (fun _ _ _ _ _ => respects_change ?_) _ ()
  exact fun _ _ => keyType_remove

theorem respects_updateColumns (oldAddress newAddress : RecordAddress)
    (changes : List (Column × Value × Value)) :
    Respects (Alike columns) (updateColumns oldAddress newAddress changes) := by
  induction changes with
  | nil => exact .pure ()
  | cons first changes ih =>
      obtain ⟨column, oldValue, newValue⟩ := first
      refine Lockstep.ite ih (Lockstep.get_bind fun indexes other h => ?_)
      rw [indexOf_congr (h.lookup column.name)]
      refine (respects_indexOf column.name).bind fun _ => Lockstep.ite ih ?_
      have hremove : Respects (Alike columns) (change column.name (Index.remove oldValue)) :=
        respects_change fun _ _ => keyType_remove
      have hinsert : Respects (Alike columns)
          (change column.name (Index.insert newValue newAddress)) :=
        respects_change fun _ _ => keyType_insert
      have hrest := Lockstep.ite (c := (!newValue.isNull) = true) (hinsert.bind fun _ => ih) ih
      exact Lockstep.ite (hremove.bind fun _ => hrest) hrest

theorem respects_update (schema : Schema) (oldRecord newRecord : Record) :
    Respects (Alike columns) (update schema oldRecord newRecord) := by
  apply (Schema.respects_columnsOf schema oldRecord).bind
  intro _
  apply (Schema.respects_columnsOf schema newRecord).bind
  intro _
  apply (Record.respects_getAddress oldRecord).bind
  intro oldAddress
  apply (Record.respects_getAddress newRecord).bind
  intro newAddress
  exact respects_updateColumns oldAddress newAddress _

end IndexSet

end QuasarDB.Storage
