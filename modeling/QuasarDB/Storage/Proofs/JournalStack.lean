import Mathlib.Data.List.Induction
import QuasarDB.Storage.UndoStack

set_option autoImplicit false

/-! # The journal is a stack

The tracks before `_pos` are a stack of undo steps with their times. Saving pushes one, reverting pops
one, and what was popped stays in the file until the next save or the end of the process. -/

namespace QuasarDB.Storage

open Prog

namespace Journal

variable {α : Type} {journal : Journal} {kept cut : List UInt8}

/-! ## One operation on the file -/

theorem run_onFile {x : Prog FileStream α} {a : α} {file : FileStream}
    (h : x journal.file = .ok a file) : onFile x journal = .ok a { journal with file } := by
  rw [onFile, run_on, h]

/-- The tracks up to `_pos`, and what is left of reverted ones. -/
structure Holds (journal : Journal) (kept cut : List UInt8) : Prop where
  good : journal.file.Good
  bytes : journal.file.bytes = kept ++ cut
  pos : journal.pos = kept.length

theorem holds_openOn (bytes : List UInt8) : (openOn bytes).Holds bytes [] where
  good := ⟨rfl, rfl⟩
  bytes := (List.append_nil bytes).symm
  pos := rfl

theorem run_truncateToLast (h : journal.Holds kept cut) :
    truncateToLast journal = .ok () { file := .around kept [], pos := kept.length } := by
  obtain ⟨⟨bytes, position, failed, isOpen⟩, pos⟩ := journal
  obtain ⟨⟨rfl, rfl⟩, rfl, rfl⟩ := h
  have hnonneg : decide ((kept.length : Int) < 0) = false := by
    rw [decide_eq_false_iff_not]
    omega
  rw [truncateToLast, run_get_bind, bind_ok (run_onFile FileStream.run_closeIfOpen), hnonneg,
    throwIf_false, run_pure_bind]
  have hresize : FileStream.resize (kept.length : Int).toNat
      { bytes := kept ++ cut, position, failed := false, isOpen := false } =
      .ok () { bytes := kept, position, failed := false, isOpen := false } :=
    FileStream.run_resize rfl
  refine (bind_ok (run_onFile hresize)).trans ?_
  refine (bind_ok (run_onFile FileStream.run_reopen)).trans ?_
  exact run_onFile (FileStream.run_seek (FileStream.good_openOn kept) (List.append_nil kept).symm rfl)

theorem run_cutOff (h : journal.Holds kept cut) :
    cutOff journal = .ok () { file := .around kept [], pos := kept.length } := by
  have hseek := run_onFile (FileStream.run_seekEnd h.good)
  rw [cutOff, bind_ok hseek, bind_ok (run_onFile FileStream.run_tell), run_get_bind]
  simp only [h.bytes, h.pos]
  by_cases hcut : cut = []
  · subst hcut
    simp
  · have hne : (kept.length : Int) ≠ (kept ++ cut).length := by
      have hpos := List.length_pos_of_ne_nil hcut
      rw [List.length_append]
      omega
    rw [if_pos hne]
    have hend : Holds { file := .around (kept ++ cut) [], pos := kept.length } kept cut :=
      ⟨FileStream.good_around _ _, List.append_nil _, rfl⟩
    exact run_truncateToLast hend

/-! ## Tracks -/

/-- The data of a track, with its length. -/
def dataBytes (data : List UInt8) : List UInt8 :=
  if data = [] then [] else wordBytes (.ofNat data.length) ++ data

/-- The bytes of a track. -/
def trackBytes (now : Track.Time) (type : Track.Kind) (recordId : UInt32) (data : List UInt8) :
    List UInt8 :=
  now.bytes ++ (wordBytes recordId ++ ([type.byte] ++
    (dataBytes data ++ wordBytes (trackSize data))))

theorem run_writeData {front data : List UInt8} (h : data.length < 2 ^ 32) :
    writeData data (.around front []) = .ok () (.around (front ++ dataBytes data) []) := by
  by_cases hdata : data = []
  · subst hdata
    simp [writeData, dataBytes]
  · have hsize : (UInt32.ofNat data.length).toNat = data.length := by
      rw [UInt32.toNat_ofNat', Nat.mod_eq_of_lt h]
    rw [writeData, if_pos hdata, bind_ok FileStream.run_write, FileStream.run_write, hsize,
      List.take_length, dataBytes, if_neg hdata, List.append_assoc]

/-- The track stands in the file where the ones that were reverted began. -/
theorem run_writeTrack {now : Track.Time} {type : Track.Kind} {recordId : UInt32}
    {data : List UInt8} (h : journal.Holds kept cut) (hdata : data.length < 2 ^ 32) :
    writeTrack now type recordId data journal = .ok now.bytes
      { file := .around (kept ++ trackBytes now type recordId data) [],
        pos := (kept ++ trackBytes now type recordId data).length } := by
  have hwrite : ∀ {front more : List UInt8} {pos : Int},
      onFile (FileStream.write more) { file := .around front [], pos } =
        .ok () { file := .around (front ++ more) [], pos } := run_onFile FileStream.run_write
  have hbytes : kept ++ now.bytes ++ wordBytes recordId ++ [type.byte] ++ dataBytes data ++
      wordBytes (trackSize data) = kept ++ trackBytes now type recordId data := by
    simp only [trackBytes, List.append_assoc]
  rw [writeTrack, bind_ok (run_cutOff h), bind_ok hwrite, bind_ok hwrite, bind_ok hwrite,
    bind_ok (run_onFile (run_writeData hdata)), bind_ok hwrite, run_get_bind, hbytes]
  simp only [FileStream.failed_around, throwIf_false, run_pure_bind]
  refine (bind_ok (run_onFile (FileStream.run_seekEnd (FileStream.good_around _ _)))).trans ?_
  refine (bind_ok (run_onFile FileStream.run_tell)).trans ?_
  simp

/-! ## Reading -/

section Reading

variable {front back data : List UInt8} {pos : Int} {count : Nat}

theorem run_seekFile {offset : Int} (h : journal.file.Good)
    (hbytes : journal.file.bytes = front ++ back) (hoffset : offset = front.length) :
    onFile (FileStream.seek offset) journal =
      .ok () { file := .around front back, pos := journal.pos } :=
  run_onFile (FileStream.run_seek h hbytes hoffset)

theorem run_readBytes (h : data.length = count) :
    readBytes count { file := .around front (data ++ back), pos } =
      .ok data { file := .around (front ++ data) back, pos } := by
  rw [readBytes, bind_ok (run_onFile (FileStream.run_read h)), if_neg (by omega)]
  rfl

theorem run_readWord {n : UInt32} :
    readWord { file := .around front (wordBytes n ++ back), pos } =
      .ok n { file := .around (front ++ wordBytes n) back, pos } := by
  rw [readWord, bind_ok (run_readBytes (length_wordBytes n)), wordOfBytes_wordBytes]
  rfl

theorem run_readBuffer (h : data.length = count) :
    readBuffer count { file := .around front (data ++ back), pos } =
      .ok data { file := .around (front ++ data) back, pos } := by
  rw [readBuffer, bind_ok (run_onFile (FileStream.run_read h)), h, Nat.sub_self,
    List.replicate_zero, List.append_nil]
  rfl

end Reading

@[simp] theorem run_nothing : nothing journal = .ok .empty journal := rfl

theorem run_revertLast_empty {time : List UInt8} {schema : Schema} {interner : Interner}
    (h : journal.Holds [] cut) : revertLast time schema interner journal = .ok .empty journal := by
  have hpos : journal.pos ≤ 0 := by
    rw [h.pos]
    exact Int.le_refl 0
  rw [revertLast, run_get_bind, if_pos hpos, run_nothing]

end Journal

/-! ## Entries -/

/-- The data of the track of an undo step. -/
def Undo.data (undo : Undo) : List UInt8 := (undo.kept.map Record.storedBytes).getD []

/-- The bytes of the track of an entry. -/
def Entry.bytes (entry : Entry) : List UInt8 :=
  Journal.trackBytes entry.time entry.undo.kind entry.undo.recordId entry.undo.data

/-- The values of the record have a place in a track: there are some, and the size of the track is a
    32-bit number. -/
structure Record.Fits (record : Record) : Prop where
  fields : record.fields ≠ []
  size : record.storedBytes.length + 36 < 2 ^ 32

/-- The values of the record can be read back. -/
structure Record.Readable (record : Record) (schema : Schema) (interner : Interner) : Prop where
  fields : record.fields.length = schema.size
  known : record.KnownTo interner

/-- The track of the entry can be written. -/
def Entry.Fits (entry : Entry) : Prop := ∀ record ∈ entry.undo.kept, record.Fits

/-- The track of the entry can be read. -/
def Entry.Readable (entry : Entry) (schema : Schema) (interner : Interner) : Prop :=
  ∀ record ∈ entry.undo.kept, record.Readable schema interner

theorem Undo.ofByte_kind (undo : Undo) : Track.Kind.ofByte undo.kind.byte = undo.kind := by
  cases undo <;> rfl

/-- Deletions are the undo steps that keep no record. -/
theorem Undo.kind_iff (undo : Undo) :
    (undo.kind = .insert ∨ undo.kind = .update) ↔ undo.kept.isSome = true := by
  cases undo <;> simp [kind, kept]

namespace Entry

variable {entry : Entry}

theorem data_length (h : entry.Fits) : entry.undo.data.length + 36 < 2 ^ 32 := by
  unfold Undo.data
  cases hkept : entry.undo.kept with
  | none => decide
  | some record => exact (h record hkept).size

theorem trackSize_toNat (h : entry.Fits) :
    (Journal.trackSize entry.undo.data).toNat = entry.bytes.length := by
  have hdata := data_length h
  have htime := entry.time.length
  unfold Journal.trackSize bytes Journal.trackBytes Journal.dataBytes
  by_cases hnil : entry.undo.data = []
  · simp [hnil, htime, Track.timeLen]
  · simp only [if_neg hnil, List.length_append, length_wordBytes, htime, Track.timeLen,
      UInt32.toNat_add, UInt32.toNat_ofNat', List.length_singleton]
    omega

/-- What follows the time in the track. -/
def tail (entry : Entry) : List UInt8 :=
  wordBytes entry.undo.recordId ++ ([entry.undo.kind.byte] ++
    (Journal.dataBytes entry.undo.data ++ wordBytes (Journal.trackSize entry.undo.data)))

theorem bytes_eq (entry : Entry) : entry.bytes = entry.time.bytes ++ entry.tail := rfl

/-- The rest of a track is read, and the stream stands somewhere in the same file. -/
theorem run_readTrack {schema : Schema} {interner : Interner} {front cut : List UInt8} {pos : Int}
    (hfits : entry.Fits) (hread : entry.Readable schema interner) :
    ∃ front' back', front' ++ back' = front ++ (entry.tail ++ cut) ∧
      Journal.readTrack entry.time.bytes schema interner
        { file := .around front (entry.tail ++ cut), pos } =
        .ok entry.result { file := .around front' back', pos } := by
  have htail : entry.tail ++ cut = wordBytes entry.undo.recordId ++ ([entry.undo.kind.byte] ++
      (Journal.dataBytes entry.undo.data ++ (wordBytes (Journal.trackSize entry.undo.data) ++ cut))) := by
    simp only [tail, List.append_assoc]
  have hcount : ∀ j : Journal, Record.ofCount entry.undo.recordId 1 j =
      .ok { id := entry.undo.recordId, fields := [.null] } j := fun _ => rfl
  have hkind : Track.Kind.ofByte ([entry.undo.kind.byte].headD 0) = entry.undo.kind :=
    entry.undo.ofByte_kind
  rw [htail, Journal.readTrack, bind_ok Journal.run_readWord,
    bind_ok (Journal.run_readBytes (List.length_singleton)), bind_ok (hcount _), hkind]
  cases hkept : entry.undo.kept with
  | none =>
      have hkind' : ¬ (entry.undo.kind = .insert ∨ entry.undo.kind = .update) := by
        rw [Undo.kind_iff, hkept]
        simp
      rw [if_neg hkind']
      refine ⟨_, _, ?_, by simp only [result, Undo.fields, hkept]; rfl⟩
      simp only [List.append_assoc]
  | some record =>
      have hkind' : entry.undo.kind = .insert ∨ entry.undo.kind = .update := by
        rw [Undo.kind_iff, hkept]
        rfl
      have hdata : entry.undo.data = record.storedBytes := by simp [Undo.data, hkept]
      have hne : record.storedBytes ≠ [] := by
        rw [Ne, Record.storedBytes_eq_nil_iff]
        exact (hfits record hkept).fields
      have hsize : (UInt32.ofNat record.storedBytes.length).toNat = record.storedBytes.length := by
        have hlt := (hfits record hkept).size
        rw [UInt32.toNat_ofNat', Nat.mod_eq_of_lt (by omega)]
      obtain ⟨hfields, hknown⟩ := hread record hkept
      have hrecord : ∀ j : Journal, Record.fromBinary record.storedBytes
          (.ofNat record.storedBytes.length) entry.undo.recordId schema interner j =
          .ok { id := entry.undo.recordId, fields := record.fields } j := by
        intro j
        have hback : Record.fromBinary (record.storedBytes ++ []) _ entry.undo.recordId _ _ j = _ :=
          Record.fromBinary_storedBytes hfields hknown hsize [] j
        rwa [List.append_nil] at hback
      rw [if_pos hkind', hdata, Journal.dataBytes, if_neg hne, List.append_assoc,
        bind_ok Journal.run_readWord, bind_ok (Journal.run_readBuffer hsize.symm), bind_ok (hrecord _)]
      refine ⟨_, _, ?_, by simp only [result, Undo.fields, hkept]; rfl⟩
      simp only [List.append_assoc]

/-- The size at the end of the track leads back to its beginning, where the time stands. -/
theorem run_toTime {journal : Journal} {kept cut time : List UInt8} {schema : Schema}
    {interner : Interner} (h : journal.Holds (kept ++ entry.bytes) cut) (hfits : entry.Fits) :
    Journal.revertLast time schema interner journal =
      (if entry.time.bytes < time then do
          modify fun journal => { journal with pos := (kept ++ entry.bytes).length }
          Journal.nothing
        else Journal.readTrack entry.time.bytes schema interner)
        { file := .around (kept ++ entry.time.bytes) (entry.tail ++ cut), pos := kept.length } := by
  have htime := entry.time.length
  have hsize := trackSize_toNat hfits
  -- the track without its size
  obtain ⟨body, hbody⟩ : ∃ body, entry.bytes = body ++ wordBytes (Journal.trackSize entry.undo.data) :=
    ⟨_, by simp only [bytes, Journal.trackBytes, ← List.append_assoc]; rfl⟩
  have hlength : entry.bytes.length = body.length + 4 := by
    rw [hbody, List.length_append, length_wordBytes]
  have hpos : ¬ (((kept ++ entry.bytes).length : Int) ≤ 0) := by
    rw [List.length_append]
    omega
  have htoSize : Journal.onFile (FileStream.seek ((kept ++ entry.bytes).length - 4)) journal =
      .ok () { file := .around (kept ++ body) (wordBytes (Journal.trackSize entry.undo.data) ++ cut),
               pos := journal.pos } := by
    refine Journal.run_seekFile h.good ?_ ?_
    · rw [h.bytes, hbody]
      simp only [List.append_assoc]
    · simp only [List.length_append]
      omega
  have htoTrack : ∀ pos, Journal.onFile (FileStream.seek ((kept ++ entry.bytes).length -
      (Journal.trackSize entry.undo.data).toNat))
        { file := .around (kept ++ body ++ wordBytes (Journal.trackSize entry.undo.data)) cut, pos } =
      .ok () { file := .around kept (entry.time.bytes ++ (entry.tail ++ cut)), pos } := by
    intro pos
    refine Journal.run_seekFile (FileStream.good_around _ _) ?_ ?_
    · rw [FileStream.bytes_around, List.append_assoc kept, ← hbody, bytes_eq]
      simp only [List.append_assoc]
    · rw [hsize, List.length_append]
      omega
  rw [Journal.revertLast, run_get_bind, h.pos, if_neg hpos, bind_ok htoSize,
    bind_ok Journal.run_readWord, bind_ok (htoTrack _),
    bind_ok (Journal.run_onFile FileStream.run_tell), run_modify_bind,
    bind_ok (Journal.run_readBuffer htime)]

/-- The track at the end is returned and left behind `_pos`, if it is not from before the time. -/
theorem run_revertLast {journal : Journal} {kept cut : List UInt8} {schema : Schema}
    {interner : Interner} (h : journal.Holds (kept ++ entry.bytes) cut) (hfits : entry.Fits)
    (hread : entry.Readable schema interner) {time : List UInt8} (htime : time ≤ entry.time.bytes) :
    ∃ journal', Journal.revertLast time schema interner journal = .ok entry.result journal' ∧
      journal'.Holds kept (entry.bytes ++ cut) := by
  rw [run_toTime h hfits, if_neg htime]
  obtain ⟨front, back, hbytes, hrun⟩ := run_readTrack hfits hread
  refine ⟨_, hrun, FileStream.good_around _ _, ?_, rfl⟩
  rw [FileStream.bytes_around, hbytes, bytes_eq]
  simp only [List.append_assoc]

/-- A track from before the time stays. -/
theorem run_revertLast_of_lt {journal : Journal} {kept cut : List UInt8} {schema : Schema}
    {interner : Interner} (h : journal.Holds (kept ++ entry.bytes) cut) (hfits : entry.Fits)
    {time : List UInt8} (htime : ¬ time ≤ entry.time.bytes) :
    ∃ journal', Journal.revertLast time schema interner journal = .ok .empty journal' ∧
      journal'.Holds (kept ++ entry.bytes) cut := by
  rw [run_toTime h hfits, if_pos (not_not.1 htime), run_modify_bind, Journal.run_nothing]
  refine ⟨_, rfl, FileStream.good_around _ _, ?_, rfl⟩
  rw [FileStream.bytes_around, bytes_eq]
  simp only [List.append_assoc]

end Entry

/-! ## Operations -/

/-- The tracks of a stack, the top last. -/
def stackBytes : List Entry → List UInt8
  | [] => []
  | entry :: stack => stackBytes stack ++ entry.bytes

/-- The tracks up to `_pos` are those of the stack. -/
def Journal.Represents (journal : Journal) (stack : List Entry) : Prop :=
  ∃ cut, journal.Holds (stackBytes stack) cut

namespace JournalOp

/-- What the file has after an operation: a save and the end of the process discard what was popped,
    and reverting leaves the file alone. -/
def Leaves (op : JournalOp) (journal journal' : Journal) (stack' : List Entry) : Prop :=
  match op with
  | revertLast _ _ _ => journal'.file.bytes = journal.file.bytes
  | _ => journal'.file.bytes = stackBytes stack'

/-- The records whose values a run has put into the journal. -/
def saves (op : JournalOp) (saved : List Record) : List Record :=
  match op with
  | saveUpdation _ oldRecord => oldRecord :: saved
  | saveDeletion _ record => record :: saved
  | _ => saved

/-- Records have a value for each column, and the size of their track is a 32-bit number; a revert has
    the schema of the table and an interner with the strings that were saved. -/
def Admissible (columns : Nat) (saved : List Record) : JournalOp → Prop
  | saveUpdation _ oldRecord =>
      oldRecord.fields.length = columns ∧ oldRecord.storedBytes.length + 36 < 2 ^ 32
  | saveDeletion _ record =>
      record.fields.length = columns ∧ record.storedBytes.length + 36 < 2 ^ 32
  | revertLast _ schema interner =>
      schema.size = columns ∧ ∀ record ∈ saved, record.KnownTo interner
  | _ => True

/-- Every operation of the run is admissible where it happens. -/
def AdmissibleRun (columns : Nat) (saved : List Record) : List JournalOp → Prop
  | [] => True
  | op :: ops => op.Admissible columns saved ∧ AdmissibleRun columns (op.saves saved) ops

/-- The entries of the stack keep records that were saved. -/
def SavedStack (columns : Nat) (saved : List Record) (stack : List Entry) : Prop :=
  ∀ entry ∈ stack, ∀ record ∈ entry.undo.kept,
    record ∈ saved ∧ record.fields.length = columns ∧ record.Fits

variable {columns : Nat} {saved : List Record} {stack : List Entry} {journal : Journal}

theorem SavedStack.mono {saved' : List Record} (h : SavedStack columns saved stack)
    (hsub : ∀ record ∈ saved, record ∈ saved') : SavedStack columns saved' stack := by
  intro entry hentry record hrecord
  obtain ⟨hsaved, hrest⟩ := h entry hentry record hrecord
  exact ⟨hsub record hsaved, hrest⟩

/-- A record with its undo step on top of the stack. -/
theorem SavedStack.push {record : Record} {entry : Entry} (h : SavedStack columns saved stack)
    (hcolumns : 0 < columns) (hentry : entry.undo.kept = some record)
    (hop : record.fields.length = columns ∧ record.storedBytes.length + 36 < 2 ^ 32) :
    SavedStack columns (record :: saved) (entry :: stack) := by
  refine List.forall_mem_cons.2 ⟨fun r hr => ?_, h.mono fun r hr => List.mem_cons_of_mem _ hr⟩
  rw [hentry] at hr
  cases hr
  refine ⟨List.mem_cons_self, hop.1, ?_, hop.2⟩
  intro hnil
  rw [hnil] at hop
  exact absurd hop.1 (by simp; omega)

/-- A save pushes its track and discards the ones that were popped. -/
theorem run_save (entry : Entry) (h : journal.Represents stack)
    (hsize : entry.undo.data.length < 2 ^ 32) :
    ∃ journal', Journal.writeTrack entry.time entry.undo.kind entry.undo.recordId entry.undo.data
        journal = .ok entry.time.bytes journal' ∧
      journal'.Represents (entry :: stack) ∧ journal'.file.bytes = stackBytes (entry :: stack) := by
  obtain ⟨cut, hholds⟩ := h
  refine ⟨_, Journal.run_writeTrack hholds hsize, ⟨[], FileStream.good_around _ _, rfl, rfl⟩, ?_⟩
  exact List.append_nil _

theorem run_closeAndReopen (h : journal.Represents stack) :
    ∃ journal', Journal.closeAndReopen journal = .ok () journal' ∧
      journal'.Represents stack ∧ journal'.file.bytes = stackBytes stack := by
  obtain ⟨cut, hholds⟩ := h
  have hclose : Journal.close journal = .ok ()
      { file := { FileStream.around (stackBytes stack) [] with isOpen := false },
        pos := (stackBytes stack).length } := by
    rw [Journal.close, run_get_bind, if_pos hholds.good.isOpen, bind_ok (Journal.run_cutOff hholds)]
    exact Journal.run_onFile FileStream.run_closeIfOpen
  refine ⟨Journal.openOn (stackBytes stack ++ []), ?_, ⟨[], ?_⟩, ?_⟩
  · rw [Journal.closeAndReopen, bind_ok hclose]
    rfl
  · rw [List.append_nil]
    exact Journal.holds_openOn _
  · exact List.append_nil _

theorem run_revertLast (h : journal.Represents stack) (hstack : SavedStack columns saved stack)
    {time : List UInt8} {schema : Schema} {interner : Interner} (hschema : schema.size = columns)
    (hknown : ∀ record ∈ saved, record.KnownTo interner) :
    ∃ journal', (revertLast time schema interner).onJournal journal =
        .ok ((revertLast time schema interner).onStack stack).1 journal' ∧
      journal'.Represents ((revertLast time schema interner).onStack stack).2 ∧
      journal'.file.bytes = journal.file.bytes := by
  obtain ⟨cut, hholds⟩ := h
  cases stack with
  | nil =>
      refine ⟨journal, ?_, ⟨cut, hholds⟩, rfl⟩
      rw [onJournal, bind_ok (Journal.run_revertLast_empty hholds)]
      rfl
  | cons entry stack =>
      have hfits : entry.Fits := fun record hrecord =>
        (hstack entry List.mem_cons_self record hrecord).2.2
      have hread : entry.Readable schema interner := by
        intro record hrecord
        obtain ⟨hsaved, hfields, _⟩ := hstack entry List.mem_cons_self record hrecord
        exact ⟨hfields.trans hschema.symm, hknown record hsaved⟩
      by_cases htime : time ≤ entry.time.bytes
      · obtain ⟨journal', hrun, hholds'⟩ := Entry.run_revertLast hholds hfits hread htime
        simp only [onStack, if_pos htime]
        refine ⟨journal', ?_, ⟨_, hholds'⟩, ?_⟩
        · rw [onJournal, bind_ok hrun]
          rfl
        · rw [hholds'.bytes, hholds.bytes, stackBytes, List.append_assoc]
      · obtain ⟨journal', hrun, hholds'⟩ := Entry.run_revertLast_of_lt hholds hfits htime
        simp only [onStack, if_neg htime]
        refine ⟨journal', ?_, ⟨_, hholds'⟩, ?_⟩
        · rw [onJournal, bind_ok hrun]
          rfl
        · rw [hholds'.bytes, hholds.bytes, stackBytes]

/-- The journal does what the stack does. -/
theorem step_refines (hcolumns : 0 < columns) (h : journal.Represents stack)
    (hstack : SavedStack columns saved stack) {op : JournalOp} (hop : op.Admissible columns saved) :
    ∃ journal', op.onJournal journal = .ok (op.onStack stack).1 journal' ∧
      journal'.Represents (op.onStack stack).2 ∧
      SavedStack columns (op.saves saved) (op.onStack stack).2 ∧
      op.Leaves journal journal' (op.onStack stack).2 := by
  cases op with
  | saveInsertion now record =>
      obtain ⟨journal', hrun, hrep, hbytes⟩ :=
        run_save ⟨now, .delete record.id⟩ h (show 0 < 2 ^ 32 by decide)
      refine ⟨journal', (bind_ok hrun).trans rfl, hrep, ?_, hbytes⟩
      refine List.forall_mem_cons.2 ⟨fun r hr => ?_, hstack⟩
      cases hr
  | saveUpdation now oldRecord =>
      have hsize : oldRecord.storedBytes.length < 2 ^ 32 := by
        have hlt := hop.2
        omega
      obtain ⟨journal', hrun, hrep, hbytes⟩ := run_save ⟨now, .update oldRecord⟩ h hsize
      refine ⟨journal', ?_, hrep, hstack.push hcolumns rfl hop, hbytes⟩
      refine (bind_ok ?_).trans rfl
      exact (bind_ok (Record.run_serialize hsize journal)).trans hrun
  | saveDeletion now record =>
      have hsize : record.storedBytes.length < 2 ^ 32 := by
        have hlt := hop.2
        omega
      obtain ⟨journal', hrun, hrep, hbytes⟩ := run_save ⟨now, .insert record⟩ h hsize
      refine ⟨journal', ?_, hrep, hstack.push hcolumns rfl hop, hbytes⟩
      refine (bind_ok ?_).trans rfl
      exact (bind_ok (Record.run_serialize hsize journal)).trans hrun
  | revertLast time schema interner =>
      obtain ⟨journal', hrun, hrep, hbytes⟩ := run_revertLast h hstack hop.1 hop.2
      refine ⟨journal', hrun, hrep, ?_, hbytes⟩
      -- nothing new comes onto the stack
      cases stack with
      | nil => exact hstack
      | cons entry stack =>
          simp only [onStack, saves]
          split
          · exact fun e he => hstack e (List.mem_cons_of_mem _ he)
          · exact hstack
  | closeAndReopen =>
      obtain ⟨journal', hrun, hrep, hbytes⟩ := run_closeAndReopen h
      exact ⟨journal', (bind_ok hrun).trans rfl, hrep, hstack, hbytes⟩

/-- The records that a run has put into the journal. -/
def savedBy (saved : List Record) : List JournalOp → List Record
  | [] => saved
  | op :: ops => savedBy (op.saves saved) ops

theorem savedBy_append {ops more : List JournalOp} :
    savedBy saved (ops ++ more) = savedBy (savedBy saved ops) more := by
  induction ops generalizing saved with
  | nil => rfl
  | cons op ops ih => exact ih

theorem admissibleRun_append {ops more : List JournalOp} :
    AdmissibleRun columns saved (ops ++ more) ↔
      AdmissibleRun columns saved ops ∧ AdmissibleRun columns (savedBy saved ops) more := by
  induction ops generalizing saved with
  | nil => simp [AdmissibleRun, savedBy]
  | cons op ops ih => simp only [List.cons_append, AdmissibleRun, ih, savedBy, and_assoc]

/-- One more operation after a run. -/
theorem runJournal_snoc {ops : List JournalOp} {op : JournalOp} {start middle last : Journal}
    {outputs : List JournalOutput} {output : JournalOutput}
    (h : runJournal ops start = .ok outputs middle) (hop : op.onJournal middle = .ok output last) :
    runJournal (ops ++ [op]) start = .ok (outputs ++ [output]) last := by
  have hlast : runJournal [op] middle = .ok [output] last := (bind_ok hop).trans rfl
  rw [runJournal_append h, bind_ok hlast]
  rfl

theorem runStack_snoc (ops : List JournalOp) (op : JournalOp) :
    runStack (ops ++ [op]) stack =
      ((runStack ops stack).1 ++ [(op.onStack (runStack ops stack).2).1],
        (op.onStack (runStack ops stack).2).2) := runStack_append ops [op] stack

/-- A run on a new file follows the stack, one operation after the other. -/
theorem run_represents (hcolumns : 0 < columns) (ops : List JournalOp)
    (h : AdmissibleRun columns [] ops) :
    ∃ journal, runJournal ops (Journal.openOn []) = .ok (runStack ops []).1 journal ∧
      journal.Represents (runStack ops []).2 ∧
      SavedStack columns (savedBy [] ops) (runStack ops []).2 := by
  induction ops using List.reverseRecOn with
  | nil =>
      refine ⟨Journal.openOn [], rfl, ⟨[], Journal.holds_openOn []⟩, ?_⟩
      exact fun entry hentry => absurd hentry List.not_mem_nil
  | append_singleton ops op ih =>
      obtain ⟨hops, hop, _⟩ := admissibleRun_append.1 h
      obtain ⟨earlier, hrun, hrep, hstack⟩ := ih hops
      obtain ⟨journal, hstep, hrep', hstack', _⟩ := step_refines hcolumns hrep hstack hop
      rw [runStack_snoc, savedBy_append]
      exact ⟨journal, runJournal_snoc hrun hstep, hrep', hstack'⟩

/-- Every run of the journal on a new file does what it does on the empty stack: it returns the same,
    the file then holds the stack, and its last operation leaves what it should. -/
theorem runJournal_refines (hcolumns : 0 < columns) {ops : List JournalOp}
    (h : AdmissibleRun columns [] ops) :
    ∃ journal, runJournal ops (Journal.openOn []) = .ok (runStack ops []).1 journal ∧
      journal.Represents (runStack ops []).2 ∧
      ∀ before op, ops = before ++ [op] →
        ∃ outputs earlier, runJournal before (Journal.openOn []) = .ok outputs earlier ∧
          op.Leaves earlier journal (runStack ops []).2 := by
  obtain ⟨journal, hrun, hrep, _⟩ := run_represents hcolumns ops h
  refine ⟨journal, hrun, hrep, ?_⟩
  rintro before op rfl
  obtain ⟨hbefore, hop, _⟩ := admissibleRun_append.1 h
  obtain ⟨earlier, hearlier, hrep', hstack⟩ := run_represents hcolumns before hbefore
  obtain ⟨last, hstep, _, _, hleaves⟩ := step_refines hcolumns hrep' hstack hop
  -- the last operation has one result only
  have hlast : last = journal := by
    have hboth := (runJournal_snoc hearlier hstep).symm.trans hrun
    injection hboth
  rw [runStack_snoc, ← hlast]
  exact ⟨_, earlier, hearlier, hleaves⟩

/-! ## A branch that is cut off -/

def branchTime : Track.Time := ⟨List.replicate Track.timeLen 50, rfl⟩

def branchSchema : Schema := { columns := [{ name := "value", columnType := .int }] }

/-- A record is saved and reverted, another one takes its place, and both that are left are reverted
    after the journal has been opened again. -/
def branchRun : List JournalOp :=
  [.saveInsertion branchTime { id := 10, fields := [.int 0] },
    .saveDeletion branchTime { id := 20, fields := [.int 7] },
    .revertLast branchTime.bytes branchSchema ⟨∅⟩,
    .saveUpdation branchTime { id := 30, fields := [.int 8] },
    .closeAndReopen,
    .revertLast branchTime.bytes branchSchema ⟨∅⟩,
    .revertLast branchTime.bytes branchSchema ⟨∅⟩]

theorem admissibleRun_branchRun : AdmissibleRun 1 [] branchRun := by
  have hknown : ∀ (id : UInt32) (n : Int32) (interner : Interner),
      Record.KnownTo { id, fields := [.int n] } interner := by
    intro id n interner value hvalue
    cases List.mem_singleton.1 hvalue
    trivial
  have hsecond : ∀ record ∈ [({ id := 20, fields := [.int 7] } : Record)], record.KnownTo ⟨∅⟩ :=
    List.forall_mem_cons.2 ⟨hknown _ _ _, fun r hr => absurd hr List.not_mem_nil⟩
  have hboth : ∀ record ∈ [({ id := 30, fields := [.int 8] } : Record),
      { id := 20, fields := [.int 7] }], record.KnownTo ⟨∅⟩ :=
    List.forall_mem_cons.2 ⟨hknown _ _ _, hsecond⟩
  exact ⟨trivial, ⟨rfl, by decide⟩, ⟨rfl, hsecond⟩, ⟨rfl, by decide⟩, trivial, ⟨rfl, hboth⟩,
    ⟨rfl, hboth⟩, trivial⟩

theorem runJournal_refines_branchRun :
    ∃ journal, runJournal branchRun (Journal.openOn []) = .ok (runStack branchRun []).1 journal ∧
      journal.Represents [] := by
  obtain ⟨journal, hrun, hrep, _⟩ := runJournal_refines Nat.one_pos admissibleRun_branchRun
  exact ⟨journal, hrun, hrep⟩

/-! ## A track whose size is no 32-bit number -/

/-- A track whose size is 0 is taken to begin at the end of the file, where there is no time. -/
theorem run_revertLast_of_zero {body time : List UInt8} {schema : Schema} {interner : Interner}
    (h : journal.Holds (body ++ wordBytes 0) []) (htime : List.replicate Track.timeLen 0 < time) :
    ∃ journal', Journal.revertLast time schema interner journal = .ok .empty journal' := by
  have hlength : (body ++ wordBytes 0).length = body.length + 4 := by
    rw [List.length_append, length_wordBytes]
  have hpos : ¬ (((body ++ wordBytes 0).length : Int) ≤ 0) := by omega
  have htoSize : Journal.onFile (FileStream.seek ((body ++ wordBytes 0).length - 4)) journal =
      .ok () { file := .around body (wordBytes 0 ++ []), pos := journal.pos } := by
    refine Journal.run_seekFile h.good ?_ (by omega)
    rw [h.bytes, List.append_assoc]
  have htoEnd : ∀ pos, Journal.onFile (FileStream.seek ((body ++ wordBytes 0).length -
      (0 : UInt32).toNat)) { file := .around (body ++ wordBytes 0) [], pos } =
      .ok () { file := .around (body ++ wordBytes 0) [], pos } := by
    intro pos
    refine Journal.run_seekFile (FileStream.good_around _ _) rfl ?_
    have hzero : (0 : UInt32).toNat = 0 := rfl
    omega
  -- nothing is read into the buffer
  have hread : FileStream.read Track.timeLen (.around (body ++ wordBytes 0) []) =
      .ok [] { FileStream.around (body ++ wordBytes 0) [] with failed := true } := by
    simp [FileStream.read, FileStream.around, Track.timeLen]
  rw [Journal.revertLast, run_get_bind, h.pos, if_neg hpos, bind_ok htoSize,
    bind_ok Journal.run_readWord, bind_ok (htoEnd _),
    bind_ok (Journal.run_onFile FileStream.run_tell), run_modify_bind, Journal.readBuffer, bind_assoc,
    bind_ok (Journal.run_onFile hread), pure_bind]
  have hbuffer : ([] : List UInt8) ++
      List.replicate (Track.timeLen - ([] : List UInt8).length) 0 < time := htime
  exact ⟨_, by rw [if_pos hbuffer, run_modify_bind, Journal.run_nothing]⟩

/-- The size of such a track wraps around to 0, and reverting reads behind it. -/
theorem run_wrapped {record : Record} (h : record.storedBytes.length = 2 ^ 32 - 36)
    (now : Track.Time) {time : List UInt8} (htime : List.replicate Track.timeLen 0 < time)
    (schema : Schema) (interner : Interner) :
    ∃ journal, runJournal [.saveDeletion now record, .revertLast time schema interner]
      (Journal.openOn []) = .ok [.saved now.bytes, .reverted .empty] journal := by
  have hlt : record.storedBytes.length < 2 ^ 32 := by omega
  have hne : record.storedBytes ≠ [] := by
    intro hnil
    rw [hnil] at h
    exact absurd h (by decide)
  have hsize : Journal.trackSize record.storedBytes = 0 := by
    rw [Journal.trackSize, if_neg hne, h]
    decide
  obtain ⟨body, hbody⟩ : ∃ body, Journal.trackBytes now .insert record.id record.storedBytes =
      body ++ wordBytes 0 := by
    refine ⟨now.bytes ++ (wordBytes record.id ++ ([Track.Kind.insert.byte] ++
      Journal.dataBytes record.storedBytes)), ?_⟩
    rw [Journal.trackBytes, hsize]
    simp only [List.append_assoc]
  have hsave : Journal.writeTrack now .insert record.id record.storedBytes (Journal.openOn []) =
      .ok now.bytes
        { file := .around (body ++ wordBytes 0) [], pos := (body ++ wordBytes 0).length } := by
    rw [← hbody]
    exact Journal.run_writeTrack (Journal.holds_openOn []) hlt
  have hholds : Journal.Holds
      { file := .around (body ++ wordBytes 0) [], pos := (body ++ wordBytes 0).length }
      (body ++ wordBytes 0) [] :=
    ⟨FileStream.good_around _ _, rfl, rfl⟩
  obtain ⟨journal, hrevert⟩ : ∃ journal', Journal.revertLast time schema interner _ = _ :=
    run_revertLast_of_zero hholds htime
  have hfirst : (saveDeletion now record).onJournal (Journal.openOn []) = .ok (.saved now.bytes) _ :=
    (bind_ok ((bind_ok (Record.run_serialize hlt _)).trans hsave)).trans rfl
  have hsecond : (revertLast time schema interner).onJournal _ = .ok (.reverted .empty) journal :=
    (bind_ok hrevert).trans rfl
  have hrun : runJournal [.saveDeletion now record] (Journal.openOn []) = .ok [.saved now.bytes] _ :=
    (bind_ok hfirst).trans rfl
  exact ⟨journal, runJournal_snoc hrun hsecond⟩

/-- A record of `count` nulls. -/
def nullRecord (count : Nat) : Record := { id := 0, fields := List.replicate count .null }

/-- A schema of `count` columns. -/
def wideSchema (count : Nat) : Schema where
  columns := (List.range count).map fun i => { name := toString i, columnType := .int }

/-- The record is saved, and reverted to the time of the save. -/
def nullRun (count : Nat) : List JournalOp :=
  [.saveDeletion branchTime (nullRecord count),
    .revertLast branchTime.bytes (wideSchema count) ⟨∅⟩]

theorem size_wideSchema (count : Nat) : (wideSchema count).size = count := by
  rw [Schema.size, wideSchema, List.length_map, List.length_range]

theorem length_nullRecord (count : Nat) : (nullRecord count).storedBytes.length = count := by
  rw [Record.storedBytes_eq, nullRecord]
  induction count with
  | zero => rfl
  | succ count ih =>
      rw [List.replicate_succ, List.flatMap_cons, List.length_append, ih, Nat.add_comm]
      rfl

theorem knownTo_nullRecord (count : Nat) (interner : Interner) :
    (nullRecord count).KnownTo interner := by
  intro value hvalue
  rw [List.eq_of_mem_replicate hvalue]
  trivial

theorem nullRun_wrapped {count : Nat} (h : count = 2 ^ 32 - 36) :
    ¬ ∃ journal, runJournal (nullRun count) (Journal.openOn []) =
      .ok (runStack (nullRun count) []).1 journal := by
  have hbytes : (nullRecord count).storedBytes.length = 2 ^ 32 - 36 := (length_nullRecord count).trans h
  have htime : List.replicate Track.timeLen 0 < branchTime.bytes := by decide
  obtain ⟨journal, hrun⟩ := run_wrapped hbytes branchTime htime (wideSchema count) ⟨∅⟩
  rintro ⟨journal', hrun'⟩
  have hboth := hrun.symm.trans hrun'
  injection hboth with houtputs
  injection houtputs with _ hrest
  injection hrest with hresult
  -- the stack returns the time of the entry
  have hpops : ((revertLast branchTime.bytes (wideSchema count) ⟨∅⟩).onStack
      [⟨branchTime, .insert (nullRecord count)⟩]).1 =
      .reverted (Entry.result ⟨branchTime, .insert (nullRecord count)⟩) := by
    rw [onStack, if_pos (List.le_refl _)]
  have hempty : JournalOutput.reverted RevertResult.empty = _ := hresult.trans hpops
  injection hempty with hempty
  have htimes : ([] : List UInt8) = branchTime.bytes := congrArg RevertResult.time hempty
  exact absurd htimes (by decide)

theorem runJournal_refines_fails :
    (nullRecord (2 ^ 32 - 36)).fields.length = (wideSchema (2 ^ 32 - 36)).size ∧
      0 < (wideSchema (2 ^ 32 - 36)).size ∧ (nullRecord (2 ^ 32 - 36)).KnownTo ⟨∅⟩ ∧
      ¬ ∃ journal, runJournal (nullRun (2 ^ 32 - 36)) (Journal.openOn []) =
        .ok (runStack (nullRun (2 ^ 32 - 36)) []).1 journal := by
  refine ⟨?_, ?_, knownTo_nullRecord _ _, nullRun_wrapped rfl⟩
  · rw [size_wideSchema, nullRecord, List.length_replicate]
  · rw [size_wideSchema]
    decide

end JournalOp

end QuasarDB.Storage
