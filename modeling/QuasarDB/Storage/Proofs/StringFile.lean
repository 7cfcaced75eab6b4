import QuasarDB.Storage.StringFile

set_option autoImplicit false

/-! # Which files of strings are loaded

A file is taken apart into whole entries and a rest, and `LoadStorage` goes through it in the same way. It
ends without an error at a rest of less than four bytes, also where there are some. -/

namespace QuasarDB.Storage.StringFile

open Prog
open FileStream (around)

/-! ## Entries -/

abbrev Entry : Type := UInt32 × List UInt8

namespace Entry

def bytes (entry : Entry) : List UInt8 :=
  wordBytes entry.1 ++ (bytesOf 8 entry.2.length ++ entry.2)

theorem length_bytes (entry : Entry) : entry.bytes.length = 12 + entry.2.length := by
  rw [bytes, List.length_append, List.length_append, length_wordBytes, length_bytesOf]
  omega

end Entry

/-- The file is made of whole entries. -/
def Whole (content : List UInt8) : Prop :=
  ∃ entries : List Entry, (∀ entry ∈ entries, entry.2.length < 2 ^ 64) ∧
    content = entries.flatMap Entry.bytes

/-- The size that stands behind an id. -/
def sizeField (bytes : List UInt8) : Nat := ofBytes ((bytes.drop 4).take 8)

/-- There is no whole entry in front of these bytes. -/
def Stuck (bytes : List UInt8) : Prop := bytes.length < 12 ∨ bytes.length < 12 + sizeField bytes

theorem sizeField_append {entry : Entry} (h : entry.2.length < 2 ^ 64) (rest : List UInt8) :
    sizeField (entry.bytes ++ rest) = entry.2.length := by
  have hsize : ((entry.bytes ++ rest).drop 4).take 8 = bytesOf 8 entry.2.length := by
    rw [Entry.bytes, List.append_assoc, List.drop_left' (length_wordBytes entry.1), List.append_assoc,
      List.take_left' (length_bytesOf 8 _)]
  rw [sizeField, hsize, ofBytes_bytesOf h]

theorem not_stuck {entry : Entry} (h : entry.2.length < 2 ^ 64) (rest : List UInt8) :
    ¬ Stuck (entry.bytes ++ rest) := by
  rw [Stuck, sizeField_append h, List.length_append, entry.length_bytes]
  omega

/-- An entry ends where its size says. -/
theorem entry_inj {entry entry' : Entry} {rest rest' : List UInt8} (h : entry.2.length < 2 ^ 64)
    (h' : entry'.2.length < 2 ^ 64) (heq : entry.bytes ++ rest = entry'.bytes ++ rest') :
    rest = rest' := by
  have hsize : entry.2.length = entry'.2.length := by
    rw [← sizeField_append h rest, heq, sizeField_append h']
  have hlength : entry.bytes.length = entry'.bytes.length := by
    rw [entry.length_bytes, entry'.length_bytes, hsize]
  exact (List.append_inj heq hlength).2

theorem eq_nil_of_whole {entries : List Entry} {tail : List UInt8}
    (hentries : ∀ entry ∈ entries, entry.2.length < 2 ^ 64) (hstuck : Stuck tail)
    (hwhole : Whole (entries.flatMap Entry.bytes ++ tail)) : tail = [] := by
  obtain ⟨entries', hentries', heq⟩ := hwhole
  induction entries generalizing entries' with
  | nil =>
      rw [List.flatMap_nil, List.nil_append] at heq
      cases entries' with
      | nil => exact heq
      | cons entry' entries' =>
          rw [heq, List.flatMap_cons] at hstuck
          exact absurd hstuck (not_stuck (hentries' entry' List.mem_cons_self) _)
  | cons entry entries ih =>
      obtain ⟨hentry, hentries⟩ := List.forall_mem_cons.1 hentries
      rw [List.flatMap_cons, List.append_assoc] at heq
      cases entries' with
      | nil =>
          have hlength := congrArg List.length heq
          rw [List.length_append, entry.length_bytes, List.flatMap_nil, List.length_nil] at hlength
          omega
      | cons entry' entries' =>
          obtain ⟨hentry', hentries'⟩ := List.forall_mem_cons.1 hentries'
          rw [List.flatMap_cons] at heq
          exact ih hentries entries' hentries' (entry_inj hentry hentry' heq)

/-- The loop stops at these bytes: there is no whole entry, or one that is too long for a string. -/
def Stops (maxSize : UInt64) (bytes : List UInt8) : Prop :=
  Stuck bytes ∨ maxSize.toNat < sizeField bytes

/-- An entry stands in front of bytes that the loop does not stop at. -/
theorem exists_entry {maxSize : UInt64} {bytes : List UInt8} (h : ¬ Stops maxSize bytes) :
    ∃ (entry : Entry) (rest : List UInt8), bytes = entry.bytes ++ rest ∧
      entry.2.length ≤ maxSize.toNat := by
  rw [Stops, Stuck, not_or, not_or, not_lt, not_lt, not_lt] at h
  obtain ⟨⟨hhead, hvalue⟩, hsize⟩ := h
  have hword : (bytes.take 4).length = 4 := List.length_take_of_le (by omega)
  have hfield : ((bytes.drop 4).take 8).length = 8 := by
    rw [List.length_take, List.length_drop]
    omega
  have hlength : ((bytes.drop 12).take (sizeField bytes)).length = sizeField bytes := by
    rw [List.length_take, List.length_drop]
    omega
  refine ⟨(wordOfBytes (bytes.take 4), (bytes.drop 12).take (sizeField bytes)),
    (bytes.drop 12).drop (sizeField bytes), ?_, ?_⟩
  · have hbytes : bytesOf 8 (sizeField bytes) = (bytes.drop 4).take 8 := by
      have hread := bytesOf_ofBytes ((bytes.drop 4).take 8)
      rwa [hfield] at hread
    have hdrop : bytes.drop 12 = (bytes.drop 4).drop 8 := by rw [List.drop_drop]
    rw [Entry.bytes, wordBytes_wordOfBytes hword, hlength, hbytes, List.append_assoc,
      List.append_assoc, List.take_append_drop, hdrop, List.take_append_drop, List.take_append_drop]
  · dsimp only
    rw [hlength]
    exact hsize

/-- Any content is whole entries and a rest that the loop stops at. -/
theorem exists_entries (maxSize : UInt64) (content : List UInt8) :
    ∃ (entries : List Entry) (tail : List UInt8), content = entries.flatMap Entry.bytes ++ tail ∧
      (∀ entry ∈ entries, entry.2.length ≤ maxSize.toNat) ∧ Stops maxSize tail := by
  -- By induction on the length, as each entry takes bytes.
  induction hlength : content.length using Nat.strongRecOn generalizing content with
  | ind n ih =>
      by_cases hstops : Stops maxSize content
      · exact ⟨[], content, rfl, fun entry hentry => absurd hentry List.not_mem_nil, hstops⟩
      · obtain ⟨entry, rest, rfl, hentry⟩ := exists_entry hstops
        have hshort : rest.length < n := by
          rw [← hlength, List.length_append, entry.length_bytes]
          omega
        obtain ⟨entries, tail, rfl, hentries, htail⟩ := ih rest.length hshort rest rfl
        refine ⟨entry :: entries, tail, ?_, List.forall_mem_cons.2 ⟨hentry, hentries⟩, htail⟩
        rw [List.flatMap_cons, List.append_assoc]

/-! ## The loop -/

/-- The strings of the entries, with the stream on a file. -/
def addEntries (file : StringFile) (entries : List Entry) : StringFile :=
  entries.foldl (fun file entry => file.addLoadedString entry.1 entry.2) file

/-- The interner with another stream. -/
def withStorage (file : StringFile) (storage : FileStream) : StringFile := { file with storage }

theorem run_onStorage {α : Type} {x : Prog FileStream α} {a : α} {s t : FileStream}
    (file : StringFile) (h : x s = .ok a t) :
    onStorage x (file.withStorage s) = .ok a (file.withStorage t) := by
  rw [onStorage, run_on, withStorage, h]
  rfl

theorem failed_around (file : StringFile) (front back : List UInt8) :
    (file.withStorage (around front back)).failed = false := rfl

/-- The stream after a read of more than is left. -/
def exhausted (bytes : List UInt8) : FileStream := { around bytes [] with failed := true }

theorem failed_exhausted (file : StringFile) (bytes : List UInt8) :
    (file.withStorage (exhausted bytes)).failed = true := rfl

theorem run_read_short {front back : List UInt8} {count : Nat} (h : back.length < count) :
    FileStream.read count (around front back) = .ok back (exhausted (front ++ back)) := by
  have htake : back.take count = back := List.take_of_length_le (Nat.le_of_lt h)
  have hlt : decide (back.length < count) = true := decide_eq_true h
  simp only [FileStream.read, run_get_bind, around, Bool.not_true, Bool.or_self,
    Bool.false_eq_true, if_false, List.drop_left, htake, hlt, exhausted, List.length_append,
    List.append_nil]
  rfl

section Loop

variable {maxSize : UInt64} {file : StringFile} {front back tail : List UInt8} {rounds : Nat}

/-- A round that takes an entry. -/
theorem run_loadEntries_entry {entry : Entry} (hsize : entry.2.length ≤ maxSize.toNat) :
    loadEntries maxSize (rounds + 1) (file.withStorage (around front (entry.bytes ++ back))) =
      loadEntries maxSize rounds ((file.addLoadedString entry.1 entry.2).withStorage
        (around (front ++ entry.bytes) back)) := by
  have hlt : entry.2.length < 256 ^ 8 := lt_of_le_of_lt hsize maxSize.toNat_lt
  have hid : FileStream.read 4 (around front (entry.bytes ++ back)) = .ok (wordBytes entry.1)
      (around (front ++ wordBytes entry.1) (bytesOf 8 entry.2.length ++ (entry.2 ++ back))) := by
    rw [Entry.bytes, List.append_assoc, List.append_assoc]
    exact FileStream.run_read (length_wordBytes entry.1)
  have hfield : FileStream.read 8 (around (front ++ wordBytes entry.1)
      (bytesOf 8 entry.2.length ++ (entry.2 ++ back))) = .ok (bytesOf 8 entry.2.length)
        (around (front ++ wordBytes entry.1 ++ bytesOf 8 entry.2.length) (entry.2 ++ back)) :=
    FileStream.run_read (length_bytesOf 8 _)
  have hvalue : FileStream.read entry.2.length
      (around (front ++ wordBytes entry.1 ++ bytesOf 8 entry.2.length) (entry.2 ++ back)) =
        .ok entry.2 (around (front ++ entry.bytes) back) := by
    rw [FileStream.run_read rfl, Entry.bytes]
    simp only [List.append_assoc]
  have hfits : decide (maxSize.toNat < entry.2.length) = false :=
    decide_eq_false (not_lt.2 hsize)
  rw [loadEntries, bind_ok (run_onStorage file hid), run_get_bind, failed_around,
    if_neg Bool.false_ne_true, bind_ok (run_onStorage file hfield)]
  rw [run_get_bind, failed_around, if_neg Bool.false_ne_true, ofBytes_bytesOf hlt, makeString, hfits,
    throwIf_false, run_pure_bind, bind_ok (run_onStorage file hvalue), run_get_bind, failed_around,
    if_neg Bool.false_ne_true, run_modify_bind, wordOfBytes_wordBytes]
  rfl

/-- The rounds that take entries. -/
theorem run_loadEntries {entries : List Entry} : ∀ {file : StringFile} {front : List UInt8},
    (∀ entry ∈ entries, entry.2.length ≤ maxSize.toNat) →
    loadEntries maxSize (entries.length + rounds)
        (file.withStorage (around front (entries.flatMap Entry.bytes ++ back))) =
      loadEntries maxSize rounds ((file.addEntries entries).withStorage
        (around (front ++ entries.flatMap Entry.bytes) back)) := by
  induction entries with
  | nil =>
      intro file front h
      rw [List.length_nil, Nat.zero_add, List.flatMap_nil, List.append_nil]
      rfl
  | cons entry entries ih =>
      intro file front h
      obtain ⟨hentry, hentries⟩ := List.forall_mem_cons.1 h
      rw [List.length_cons, Nat.add_right_comm, List.flatMap_cons, List.append_assoc,
        run_loadEntries_entry hentry, ih hentries, ← List.append_assoc front]
      rfl

/-- What is left of less than four bytes ends the loop. -/
theorem run_loadEntries_end (h : tail.length < 4) :
    loadEntries maxSize (rounds + 1) (file.withStorage (around front tail)) =
      .ok () (file.withStorage (around (front ++ tail) [])) := by
  rw [loadEntries, bind_ok (run_onStorage file (run_read_short h)), run_get_bind, failed_exhausted,
    if_pos rfl]
  exact run_onStorage file rfl

/-- The head of an entry and the bytes behind it. -/
theorem exists_head (h : 12 ≤ tail.length) :
    ∃ id field rest, tail = id ++ (field ++ rest) ∧ id.length = 4 ∧ field.length = 8 ∧
      ofBytes field = sizeField tail := by
  refine ⟨tail.take 4, (tail.drop 4).take 8, (tail.drop 4).drop 8, ?_, ?_, ?_, rfl⟩
  · rw [List.take_append_drop, List.take_append_drop]
  · exact List.length_take_of_le (by omega)
  · rw [List.length_take, List.length_drop]
    omega

/-- An entry that is cut off. -/
theorem run_loadEntries_stuck (h : 4 ≤ tail.length) (hstuck : Stuck tail)
    (hsize : 12 ≤ tail.length → sizeField tail ≤ maxSize.toNat) :
    ∃ file', loadEntries maxSize (rounds + 1) (file.withStorage (around front tail)) =
      .error corrupted file' := by
  by_cases hhead : 12 ≤ tail.length
  · -- The value is cut off.
    have hfits : decide (maxSize.toNat < sizeField tail) = false :=
      decide_eq_false (not_lt.2 (hsize hhead))
    obtain ⟨id, field, rest, htail, hid, hfield, hvalue⟩ := exists_head hhead
    have hshort : rest.length < sizeField tail := by
      have hlength := congrArg List.length htail
      rw [List.length_append, List.length_append] at hlength
      rw [Stuck] at hstuck
      omega
    have hread₁ : FileStream.read 4 (around front tail) =
        .ok id (around (front ++ id) (field ++ rest)) := by
      rw [htail]
      exact FileStream.run_read hid
    refine ⟨file.withStorage (exhausted (front ++ id ++ field ++ rest)), ?_⟩
    rw [loadEntries, bind_ok (run_onStorage file hread₁), run_get_bind, failed_around,
      if_neg Bool.false_ne_true, bind_ok (run_onStorage file (FileStream.run_read hfield))]
    rw [run_get_bind, failed_around, if_neg Bool.false_ne_true, hvalue, makeString, hfits,
      throwIf_false, run_pure_bind, bind_ok (run_onStorage file (run_read_short hshort)), run_get_bind,
      failed_exhausted, if_pos rfl]
    rfl
  · -- The size is cut off.
    obtain ⟨id, rest, rfl, hid⟩ : ∃ id rest, tail = id ++ rest ∧ id.length = 4 :=
      ⟨tail.take 4, tail.drop 4, (List.take_append_drop 4 tail).symm, List.length_take_of_le h⟩
    have hshort : rest.length < 8 := by
      rw [List.length_append] at hhead
      omega
    refine ⟨file.withStorage (exhausted (front ++ id ++ rest)), ?_⟩
    rw [loadEntries, bind_ok (run_onStorage file (FileStream.run_read hid)), run_get_bind,
      failed_around, if_neg Bool.false_ne_true, bind_ok (run_onStorage file (run_read_short hshort))]
    rw [run_get_bind, failed_exhausted, if_pos rfl]
    rfl

/-- A size that no string has. -/
theorem run_loadEntries_long (h : 12 ≤ tail.length) (hsize : maxSize.toNat < sizeField tail) :
    ∃ file', loadEntries maxSize (rounds + 1) (file.withStorage (around front tail)) =
      .error (.exception "basic_string::_M_create") file' := by
  obtain ⟨id, field, rest, htail, hid, hfield, hvalue⟩ := exists_head h
  have hread₁ : FileStream.read 4 (around front tail) =
      .ok id (around (front ++ id) (field ++ rest)) := by
    rw [htail]
    exact FileStream.run_read hid
  refine ⟨file.withStorage (around (front ++ id ++ field) rest), ?_⟩
  rw [loadEntries, bind_ok (run_onStorage file hread₁), run_get_bind, failed_around,
    if_neg Bool.false_ne_true, bind_ok (run_onStorage file (FileStream.run_read hfield))]
  rw [run_get_bind, failed_around, if_neg Bool.false_ne_true, hvalue, makeString,
    decide_eq_true hsize, throwIf_true]
  rfl

end Loop

/-! ## Loading and appending -/

variable {maxSize : UInt64} {content tail : List UInt8} {entries : List Entry}

/-- What the loop makes of a file of these entries. -/
def loaded (entries : List Entry) : StringFile :=
  ((onFile []).addEntries entries).withStorage (around (entries.flatMap Entry.bytes) [])

theorem run_useStorage (file : StringFile) :
    useStorage maxSize file = loadEntries maxSize (file.storage.bytes.length + 1)
      ((onFile []).withStorage (around [] file.storage.bytes)) := by
  have hreopen : onStorage (do FileStream.closeIfOpen; FileStream.reopen) file =
      .ok () (file.withStorage (around [] file.storage.bytes)) := rfl
  have hstart : FileStream.seek 0 (around [] file.storage.bytes) =
      .ok () (around [] file.storage.bytes) :=
    FileStream.run_seek (FileStream.good_around _ _) rfl rfl
  have hseek : onStorage (do clear; FileStream.seek 0)
      ((onFile []).withStorage (around [] file.storage.bytes)) =
      .ok () ((onFile []).withStorage (around [] file.storage.bytes)) :=
    run_onStorage _ hstart
  rw [useStorage, bind_ok hreopen, loadStorage, run_modify_bind]
  exact (bind_ok hseek).trans rfl

theorem length_entries_le (entries : List Entry) :
    entries.length ≤ (entries.flatMap Entry.bytes).length := by
  induction entries with
  | nil => exact Nat.le_refl _
  | cons entry entries ih =>
      rw [List.flatMap_cons, List.length_append, List.length_cons, entry.length_bytes]
      omega

/-- The loop gets through the entries to the rest. -/
theorem run_useStorage_entries {file : StringFile}
    (hbytes : file.storage.bytes = entries.flatMap Entry.bytes ++ tail)
    (hentries : ∀ entry ∈ entries, entry.2.length ≤ maxSize.toNat) :
    ∃ rounds, useStorage maxSize file = loadEntries maxSize (rounds + 1)
      (((onFile []).addEntries entries).withStorage (around (entries.flatMap Entry.bytes) tail)) := by
  have hlength := length_entries_le entries
  refine ⟨file.storage.bytes.length - entries.length, ?_⟩
  have hrounds : file.storage.bytes.length + 1 =
      entries.length + (file.storage.bytes.length - entries.length + 1) := by
    rw [hbytes, List.length_append]
    omega
  rw [run_useStorage, hrounds, hbytes, run_loadEntries hentries]
  rfl

/-- A file of whole entries is loaded. -/
theorem run_useStorage_whole {file : StringFile}
    (hbytes : file.storage.bytes = entries.flatMap Entry.bytes)
    (hentries : ∀ entry ∈ entries, entry.2.length ≤ maxSize.toNat) :
    useStorage maxSize file = .ok () (loaded entries) := by
  rw [← List.append_nil (entries.flatMap Entry.bytes)] at hbytes
  obtain ⟨rounds, hrun⟩ := run_useStorage_entries hbytes hentries
  rw [hrun, run_loadEntries_end (by decide), List.append_nil]
  rfl

theorem run_writePart (file : StringFile) (front data : List UInt8) :
    writePart data (file.withStorage (around front [])) =
      .ok () (file.withStorage (around (front ++ data) [])) := by
  rw [writePart, bind_ok (run_onStorage file FileStream.run_write), run_get_bind, failed_around]
  rfl

/-- An entry is put at the end of the file. -/
theorem run_appendToDisk (file : StringFile) (front : List UInt8) (id : UInt32) (str : List UInt8) :
    appendToDisk id str (file.withStorage (around front [])) =
      .ok () (file.withStorage (around (front ++ Entry.bytes (id, str)) [])) := by
  have hseek : onStorage (do clear; FileStream.seekEnd) (file.withStorage (around front [])) =
      .ok () (file.withStorage (around front [])) := by
    apply run_onStorage
    rw [clear, run_modify_bind]
    refine (FileStream.run_seekEnd (FileStream.good_around front [])).trans ?_
    rw [FileStream.bytes_around, List.append_nil]
  rw [appendToDisk, bind_ok hseek, bind_ok (run_writePart _ _ _), bind_ok (run_writePart _ _ _),
    bind_ok (run_writePart _ _ _), run_get_bind, failed_around, Entry.bytes, List.append_assoc,
    List.append_assoc]
  rfl

/-! ## Which files are loaded -/

/-- Exactly the files of whole entries are loaded, others raise the corruption error, and a file that was
    loaded is loaded again with one entry more after one was appended. -/
structure OnlyWhole (maxSize : UInt64) (content : List UInt8) : Prop where
  loads : (∃ file, useStorage maxSize (onFile content) = .ok () file) ↔ Whole content
  raises : ¬ Whole content → ∃ file, useStorage maxSize (onFile content) = .error corrupted file
  appends : ∀ file, useStorage maxSize (onFile content) = .ok () file → ∀ (id : UInt32) (str),
    str.length ≤ maxSize.toNat →
    ∃ entries file', file = loaded entries ∧ content = entries.flatMap Entry.bytes ∧
      appendToDisk id str file = .ok () file' ∧
      useStorage maxSize file' = .ok () (loaded (entries ++ [(id, str)]))

/-- Behind the last whole entry there are no bytes or at least four, and no size is larger than a string
    can be. -/
def Clean (maxSize : UInt64) (content : List UInt8) : Prop :=
  ∃ (entries : List Entry) (tail : List UInt8), content = entries.flatMap Entry.bytes ++ tail ∧
    (∀ entry ∈ entries, entry.2.length ≤ maxSize.toNat) ∧ Stuck tail ∧
    (tail = [] ∨ 4 ≤ tail.length) ∧ (12 ≤ tail.length → sizeField tail ≤ maxSize.toNat)

theorem small_of_le {entry : Entry} (h : entry.2.length ≤ maxSize.toNat) :
    entry.2.length < 2 ^ 64 :=
  lt_of_le_of_lt h maxSize.toNat_lt

theorem onlyWhole_of_whole (hentries : ∀ entry ∈ entries, entry.2.length ≤ maxSize.toNat) :
    OnlyWhole maxSize (entries.flatMap Entry.bytes) := by
  have hwhole : Whole (entries.flatMap Entry.bytes) :=
    ⟨entries, fun entry hentry => small_of_le (hentries entry hentry), rfl⟩
  have hrun : useStorage maxSize (onFile (entries.flatMap Entry.bytes)) = .ok () (loaded entries) :=
    run_useStorage_whole rfl hentries
  refine ⟨⟨fun _ => hwhole, fun _ => ⟨_, hrun⟩⟩, fun hnot => absurd hwhole hnot, ?_⟩
  intro file hfile id str hstr
  cases hrun.symm.trans hfile
  have happended : (entries ++ [(id, str)]).flatMap Entry.bytes =
      entries.flatMap Entry.bytes ++ Entry.bytes (id, str) := by
    rw [List.flatMap_append, List.flatMap_singleton]
  refine ⟨entries, _, rfl, rfl, run_appendToDisk _ _ id str, ?_⟩
  apply run_useStorage_whole
  · rw [happended]
    exact List.append_nil _
  · intro entry hentry
    rcases List.mem_append.1 hentry with hold | hnew
    · exact hentries entry hold
    · rw [List.mem_singleton.1 hnew]
      exact hstr

theorem onlyWhole_of_clean (h : Clean maxSize content) : OnlyWhole maxSize content := by
  obtain ⟨entries, tail, rfl, hentries, hstuck, htail, hsize⟩ := h
  rcases htail with hnil | hlong
  · rw [hnil, List.append_nil]
    exact onlyWhole_of_whole hentries
  · have hbytes : (onFile (entries.flatMap Entry.bytes ++ tail)).storage.bytes =
        entries.flatMap Entry.bytes ++ tail := rfl
    obtain ⟨rounds, hrun⟩ := run_useStorage_entries hbytes hentries
    obtain ⟨file, herror⟩ := run_loadEntries_stuck hlong hstuck hsize
    rw [herror] at hrun
    have hwhole : ¬ Whole (entries.flatMap Entry.bytes ++ tail) := by
      intro hwhole
      have hnil := eq_nil_of_whole (fun entry hentry => small_of_le (hentries entry hentry)) hstuck hwhole
      rw [hnil, List.length_nil] at hlong
      omega
    refine ⟨⟨?_, fun h => absurd h hwhole⟩, fun _ => ⟨file, hrun⟩, ?_⟩
    · intro hloads
      obtain ⟨file', hfile'⟩ := hloads
      cases hrun.symm.trans hfile'
    · intro file' hfile'
      cases hrun.symm.trans hfile'

theorem clean_of_onlyWhole (h : OnlyWhole maxSize content) : Clean maxSize content := by
  obtain ⟨entries, tail, rfl, hentries, hstops⟩ := exists_entries maxSize content
  have hbytes : (onFile (entries.flatMap Entry.bytes ++ tail)).storage.bytes =
      entries.flatMap Entry.bytes ++ tail := rfl
  obtain ⟨rounds, hrun⟩ := run_useStorage_entries hbytes hentries
  -- A size that no string has raises another error.
  have hsize : 12 ≤ tail.length → sizeField tail ≤ maxSize.toNat := by
    intro hhead
    by_contra hlarge
    obtain ⟨file, herror⟩ := run_loadEntries_long hhead (not_le.1 hlarge)
    rw [herror] at hrun
    by_cases hwhole : Whole (entries.flatMap Entry.bytes ++ tail)
    · obtain ⟨file', hfile'⟩ := h.loads.2 hwhole
      cases hrun.symm.trans hfile'
    · obtain ⟨file', hfile'⟩ := h.raises hwhole
      have hfailure := (EStateM.Result.error.inj (hrun.symm.trans hfile')).1
      exact absurd hfailure (by decide)
  have hstuck : Stuck tail := by
    rcases hstops with hstuck | hlarge
    · exact hstuck
    · by_cases hhead : 12 ≤ tail.length
      · exact absurd hlarge (not_lt.2 (hsize hhead))
      · exact Or.inl (not_le.1 hhead)
  refine ⟨entries, tail, rfl, hentries, hstuck, ?_, hsize⟩
  -- Less than four bytes are taken for the end of the file.
  by_contra htail
  rw [not_or, not_le] at htail
  rw [run_loadEntries_end htail.2] at hrun
  have hwhole := h.loads.1 ⟨_, hrun⟩
  exact htail.1 (eq_nil_of_whole (fun entry hentry => small_of_le (hentries entry hentry)) hstuck
    hwhole)

theorem onlyWhole_iff (maxSize : UInt64) (content : List UInt8) :
    OnlyWhole maxSize content ↔ Clean maxSize content :=
  ⟨clean_of_onlyWhole, onlyWhole_of_clean⟩

/-! One byte is left of an entry, and the next string is put behind it. -/

theorem useStorage_cutEntry :
    ¬ Whole [7] ∧
    ∃ file file' file'', useStorage 9223372036854775806 (onFile [7]) = .ok () file ∧
      appendToDisk 1 [97] file = .ok () file' ∧
      useStorage 9223372036854775806 file' = .error corrupted file'' := by
  constructor
  · intro hwhole
    have hnil := @eq_nil_of_whole [] [7] (fun entry hentry => absurd hentry List.not_mem_nil)
      (Or.inl (by decide)) hwhole
    cases hnil
  · -- The bytes are read as an id and the size 256.
    have hstuck : Stuck ([7] ++ Entry.bytes (1, [97])) := Or.inr (by decide)
    obtain ⟨file'', hcorrupted⟩ := @run_loadEntries_stuck 9223372036854775806 (onFile []) [] _ 14
      (by decide) hstuck (fun _ => by decide)
    refine ⟨(onFile []).withStorage (around [7] []), _, file'', ?_, run_appendToDisk _ _ 1 [97], ?_⟩
    · rw [run_useStorage]
      exact run_loadEntries_end (by decide)
    · rw [run_useStorage]
      exact hcorrupted

end QuasarDB.Storage.StringFile
