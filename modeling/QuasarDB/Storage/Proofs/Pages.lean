import QuasarDB.Storage.Rows

set_option autoImplicit false

/-! # What the data pages hold

Writing a record puts its cell at an address that had none, and deleting one marks its cell; every other
address keeps its cell. A record is read back from the cell it was written as. -/

namespace QuasarDB.Storage

open Prog

/-- The cell at an address. -/
def cellAt (pages : List (List Cell)) (address : RecordAddress) : Option Cell :=
  if address.pageIndex = 0 then none
  else (pages[address.pageIndex - 1]?).bind fun cells => cells[address.slotIdx]?

/-- The cell that a row is written as. -/
def cellOf (id : UInt32) (fields : List Value) : Cell where
  recordId := id
  recordSize := .ofNat (rowBytes fields).length
  payload := rowBytes fields

namespace Table

variable {table : Table} {address : RecordAddress}

theorem cellAt_append_nil (pages : List (List Cell)) (address : RecordAddress) :
    cellAt (pages ++ [[]]) address = cellAt pages address := by
  unfold cellAt
  by_cases hpage : address.pageIndex = 0
  · rw [if_pos hpage, if_pos hpage]
  · rw [if_neg hpage, if_neg hpage]
    by_cases hlt : address.pageIndex - 1 < pages.length
    · rw [List.getElem?_append_left hlt]
    · rw [List.getElem?_append_right (not_lt.1 hlt), List.getElem?_eq_none (not_lt.1 hlt)]
      cases address.pageIndex - 1 - pages.length with
      | zero => rfl
      | succ n => rfl

/-- A change of the page of an address, at other addresses of the page and at other pages. -/
theorem cellAt_set {pages : List (List Cell)} {n : Nat} {cells cells' : List Cell}
    (hn : 0 < n) (hpage : pages[n - 1]? = some cells) :
    cellAt (pages.set (n - 1) cells') address =
      if address.pageIndex = n then cells'[address.slotIdx]? else cellAt pages address := by
  obtain ⟨hlt, -⟩ := List.getElem?_eq_some_iff.1 hpage
  unfold cellAt
  by_cases hpage : address.pageIndex = n
  · rw [if_pos hpage, if_neg (by omega), hpage, List.getElem?_set_self hlt]
    rfl
  · rw [if_neg hpage]
    by_cases hzero : address.pageIndex = 0
    · rw [if_pos hzero, if_pos hzero]
    · rw [if_neg hzero, if_neg hzero, List.getElem?_set_ne (by omega)]

theorem run_readPage {n : Nat} {cells : List Cell} (hn : 0 < n)
    (hpage : table.pages[n - 1]? = some cells) : readPage n table = .ok cells table := by
  rw [readPage, if_neg (by omega)]
  dsimp only
  rw [run_get_bind, hpage]
  rfl

/-! ## Writing -/

theorem findFreePage_some {freeSpace : Nat} {pages : List (List Cell)} : ∀ {first n : Nat},
    findFreePage freeSpace first pages = some n →
    first ≤ n ∧ ∃ cells, pages[n - first]? = some cells ∧ TablePage.isRecordFit freeSpace cells := by
  induction pages with
  | nil =>
      intro first n h
      cases h
  | cons cells pages ih =>
      intro first n h
      rw [findFreePage] at h
      by_cases hfit : TablePage.isRecordFit freeSpace cells = true
      · rw [if_pos hfit] at h
        obtain rfl := Option.some.inj h
        exact ⟨le_refl _, cells, by simp, hfit⟩
      · rw [if_neg hfit] at h
        obtain ⟨hle, found, hfound, hfit⟩ := ih h
        refine ⟨by omega, found, ?_, hfit⟩
        rwa [show n - first = (n - (first + 1)) + 1 by omega, List.getElem?_cons_succ]

/-- A page with room, which may be new. -/
theorem run_findEnoughFreePage (table : Table) {size : Nat} (preferred : Nat) (hsize : size ≤ TablePage.maxRecordSize) :
    ∃ (n : Nat) (pages : List (List Cell)) (cells : List Cell),
      findEnoughFreePage size preferred table = .ok n { table with pages } ∧ 0 < n ∧
      pages[n - 1]? = some cells ∧ TablePage.isRecordFit size cells ∧
      ∀ address, cellAt pages address = cellAt table.pages address := by
  have hthrow : decide (TablePage.maxRecordSize < size) = false := by
    rw [decide_eq_false_iff_not]
    omega
  rw [findEnoughFreePage, hthrow, throwIf_false, run_pure_bind, run_get_bind]
  by_cases hpreferred : (decide (0 < preferred) && decide (preferred < table.pages.length + 1) &&
      TablePage.isRecordFit size (table.pages.getD (preferred - 1) [])) = true
  · rw [if_pos hpreferred]
    simp only [Bool.and_eq_true, decide_eq_true_eq] at hpreferred
    obtain ⟨⟨hpos, hlt⟩, hfit⟩ := hpreferred
    have hpage : table.pages[preferred - 1]? = some (table.pages.getD (preferred - 1) []) := by
      rw [List.getD_eq_getElem?_getD, List.getElem?_eq_getElem (by omega)]
      rfl
    exact ⟨preferred, table.pages, _, rfl, hpos, hpage, hfit, fun _ => rfl⟩
  · rw [if_neg hpreferred]
    cases hfound : findFreePage size 1 table.pages with
    | some n =>
        obtain ⟨hle, cells, hcells, hfit⟩ := findFreePage_some hfound
        exact ⟨n, table.pages, cells, rfl, hle, hcells, hfit, fun _ => rfl⟩
    | none =>
        refine ⟨table.pages.length + 1, table.pages ++ [[]], [], rfl, by omega, by simp, ?_,
          cellAt_append_nil table.pages⟩
        rw [TablePage.isRecordFit, decide_eq_true_eq]
        simp only [TablePage.maxRecordSize, TablePage.pageSize, TablePage.headerSize,
          TablePage.cellSize, TablePage.nextFreeOffset, List.map_nil, List.sum_nil] at hsize ⊢
        omega

theorem insertRecord_of_isRecordFit {id : UInt32} {data : List UInt8} {cells : List Cell}
    (h : TablePage.isRecordFit data.length cells) :
    TablePage.insertRecord id data cells = (some cells.length,
      cells ++ [{ recordId := id, recordSize := .ofNat data.length, payload := data }]) := by
  rw [TablePage.isRecordFit, decide_eq_true_eq] at h
  rw [TablePage.insertRecord, if_neg (by omega)]

theorem storedBytes_eq_rowBytes (record : Record) : record.storedBytes = rowBytes record.fields :=
  Record.storedBytes_eq

/-- A record gets an address of its own. -/
theorem run_writeRecordToDisk (table : Table) (record : Record) (preferred : Nat)
    (hsize : (rowBytes record.fields).length ≤ TablePage.maxRecordSize) :
    ∃ (address : RecordAddress) (pages : List (List Cell)),
      writeRecordToDisk record preferred table =
        .ok { record with address := some address } { table with pages } ∧
      cellAt table.pages address = none ∧
      ∀ other, cellAt pages other =
        if other = address then some (cellOf record.id record.fields) else cellAt table.pages other := by
  have hserialize : record.serialize table = .ok (rowBytes record.fields) table := by
    rw [← storedBytes_eq_rowBytes]
    refine Record.run_serialize ?_ table
    rw [storedBytes_eq_rowBytes]
    simp only [TablePage.maxRecordSize, TablePage.pageSize, TablePage.headerSize,
      TablePage.cellSize] at hsize
    omega
  obtain ⟨n, pages, cells, hfind, hn, hpage, hfit, hsame⟩ :=
    run_findEnoughFreePage table preferred hsize
  have hread : readPage n { table with pages } = .ok cells { table with pages } := run_readPage hn hpage
  rw [writeRecordToDisk, bind_ok hserialize, bind_ok hfind, bind_ok hread,
    insertRecord_of_isRecordFit hfit]
  have hlast : ∀ other : RecordAddress, other.pageIndex = n → cellAt pages other = cells[other.slotIdx]? := by
    intro other hother
    rw [cellAt, hother, if_neg (by omega), hpage]
    rfl
  refine ⟨⟨n, cells.length⟩, _, rfl, ?_, fun other => ?_⟩
  · rw [← hsame, hlast _ rfl]
    exact List.getElem?_eq_none (le_refl _)
  · rw [cellAt_set hn hpage]
    by_cases hother : other.pageIndex = n
    · rw [if_pos hother, ← hsame, hlast other hother]
      by_cases hslot : other.slotIdx = cells.length
      · rw [if_pos (by cases other; simp_all), hslot, List.getElem?_concat_length]
        rfl
      · rw [if_neg (fun h => hslot (by rw [h]))]
        by_cases hlt : other.slotIdx < cells.length
        · rw [List.getElem?_append_left hlt]
        · rw [List.getElem?_eq_none (by simp; omega), List.getElem?_eq_none (by omega)]
    · rw [if_neg hother, if_neg (fun h => hother (by rw [h])), hsame]

/-- What `find_enough_free_page` throws at a record that is too large for a page. -/
def tooLarge : String := "free_space > TablePage::MAX_RECORD_SIZE."

/-- If it is an exception, it is about a record that is too large. -/
def IsTooLarge (failure : Failure) : Prop := ∀ what, failure = .exception what → what = tooLarge

/-- A record that is too large for a page is not written. -/
theorem run_writeRecordToDisk_of_lt {record : Record} {preferred : Nat}
    (hsize : TablePage.maxRecordSize < (rowBytes record.fields).length)
    (hword : (rowBytes record.fields).length < 2 ^ 32) :
    writeRecordToDisk record preferred table = .error (.exception tooLarge) table := by
  have hserialize : record.serialize table = .ok (rowBytes record.fields) table := by
    rw [← storedBytes_eq_rowBytes]
    refine Record.run_serialize ?_ table
    rwa [storedBytes_eq_rowBytes]
  have hthrow : decide (TablePage.maxRecordSize < (rowBytes record.fields).length) = true :=
    decide_eq_true hsize
  rw [writeRecordToDisk, bind_ok hserialize, findEnoughFreePage, hthrow, throwIf_true]
  rfl

/-- Nor is one whose size is no 32-bit number, where the size that is asserted is another one. -/
theorem run_writeRecordToDisk_error (table : Table) {record : Record} (preferred : Nat)
    (hsize : TablePage.maxRecordSize < (rowBytes record.fields).length) :
    ∃ e, IsTooLarge e ∧ writeRecordToDisk record preferred table = .error e table := by
  by_cases hword : (rowBytes record.fields).length < 2 ^ 32
  · refine ⟨_, fun what hwhat => ?_, run_writeRecordToDisk_of_lt hsize hword⟩
    cases hwhat
    rfl
  · have hne : (record.storedBytes.length == record.serializedSize.toNat) = false := by
      rw [beq_eq_false_iff_ne, storedBytes_eq_rowBytes]
      have hlt := record.serializedSize.toNat_lt
      omega
    have hserialize : record.serialize table =
        .error (.assertion "data_v.size() == result_size") table := by
      rw [Record.serialize, hne]
      rfl
    refine ⟨_, ?_, bind_error hserialize⟩
    intro what hwhat
    cases hwhat

/-- Deleting marks the cell. -/
theorem run_deleteCell {cell : Cell} (h : cellAt table.pages address = some cell) :
    ∃ pages : List (List Cell), deleteCell address table = .ok () { table with pages } ∧
      ∀ other, cellAt pages other =
        if other = address then some { cell with deleted := true } else cellAt table.pages other := by
  unfold cellAt at h
  by_cases hzero : address.pageIndex = 0
  · rw [if_pos hzero] at h
    cases h
  rw [if_neg hzero] at h
  obtain ⟨cells, hpage, hslot⟩ := Option.bind_eq_some_iff.1 h
  have hn : 0 < address.pageIndex := Nat.pos_of_ne_zero hzero
  have hdelete : TablePage.deleteRecord address.slotIdx cells =
      .ok (cells.set address.slotIdx { cell with deleted := true }) := by
    rw [TablePage.deleteRecord, hslot]
  rw [deleteCell, bind_ok (run_readPage hn hpage), hdelete]
  refine ⟨_, rfl, fun other => ?_⟩
  rw [cellAt_set hn hpage]
  obtain ⟨hlt, -⟩ := List.getElem?_eq_some_iff.1 hslot
  by_cases hother : other.pageIndex = address.pageIndex
  · rw [if_pos hother]
    by_cases hslotIdx : other.slotIdx = address.slotIdx
    · rw [if_pos (by cases other; cases address; simp_all), hslotIdx, List.getElem?_set_self hlt]
    · rw [if_neg (fun h => hslotIdx (by rw [h])), List.getElem?_set_ne (Ne.symm hslotIdx), cellAt, hother,
        if_neg hzero, hpage]
      rfl
  · rw [if_neg hother, if_neg (fun h => hother (by rw [h]))]

/-! ## Reading -/

/-- A row is at an address. -/
def StoredAt (table : Table) (address : RecordAddress) (id : UInt32) (fields : List Value) : Prop :=
  cellAt table.pages address = some (cellOf id fields)

/-- The values of a row can be read. -/
structure Reads (table : Table) (fields : List Value) : Prop where
  length : fields.length = table.schema.size
  known : ∀ value ∈ fields, table.strings.toInterner.Knows value
  size : (rowBytes fields).length ≤ TablePage.maxRecordSize

theorem run_readCell {σ : Type} {id : UInt32} {fields : List Value} {cells : List Cell} {slotIdx : Nat}
    (hslot : cells[slotIdx]? = some (cellOf id fields)) (hreads : table.Reads fields) (s : σ) :
    TablePage.readRecord slotIdx table.schema table.strings.toInterner cells s =
      .ok (some { id, fields }) s := by
  have hsize : (UInt32.ofNat (rowBytes fields).length).toNat =
      ({ id, fields : Record }).storedBytes.length := by
    have hle := hreads.size
    simp only [TablePage.maxRecordSize, TablePage.pageSize, TablePage.headerSize,
      TablePage.cellSize] at hle
    rw [storedBytes_eq_rowBytes, UInt32.toNat_ofNat', Nat.mod_eq_of_lt]
    omega
  have hknown : ({ id, fields : Record }).KnownTo table.strings.toInterner := hreads.known
  have hread : Record.fromBinary (cellOf id fields).payload (cellOf id fields).recordSize
      (cellOf id fields).recordId table.schema table.strings.toInterner s = .ok { id, fields } s := by
    have hread : Record.fromBinary (({ id, fields : Record }).storedBytes ++ [])
        (cellOf id fields).recordSize id table.schema table.strings.toInterner s = .ok { id, fields } s :=
      Record.fromBinary_storedBytes hreads.length hknown hsize [] s
    rwa [List.append_nil, storedBytes_eq_rowBytes] at hread
  rw [TablePage.readRecord, hslot]
  dsimp only
  rw [if_neg (by simp [cellOf]), bind_ok hread]
  rfl

theorem readRecord_eq {cells : List Cell} (hn : 0 < address.pageIndex)
    (hpage : table.pages[address.pageIndex - 1]? = some cells) :
    readRecord address table =
      (do
        let record ← TablePage.readRecord address.slotIdx table.schema table.strings.toInterner cells
        return record.map fun record : Record => { record with address := some address }) table := by
  obtain ⟨hlt, -⟩ := List.getElem?_eq_some_iff.1 hpage
  rw [readRecord, run_get_bind, if_pos (by unfold totalPages; omega), bind_ok (run_readPage hn hpage)]

/-- The page and the slot of a row. -/
theorem StoredAt.cell {id : UInt32} {fields : List Value} (h : table.StoredAt address id fields) :
    ∃ cells, table.pages[address.pageIndex - 1]? = some cells ∧
      cells[address.slotIdx]? = some (cellOf id fields) ∧ 0 < address.pageIndex := by
  unfold StoredAt cellAt at h
  by_cases hzero : address.pageIndex = 0
  · rw [if_pos hzero] at h
    cases h
  · rw [if_neg hzero] at h
    obtain ⟨cells, hpage, hslot⟩ := Option.bind_eq_some_iff.1 h
    exact ⟨cells, hpage, hslot, Nat.pos_of_ne_zero hzero⟩

/-- A row is read from its address. -/
theorem run_readRecord {id : UInt32} {fields : List Value} (h : table.StoredAt address id fields)
    (hreads : table.Reads fields) :
    readRecord address table = .ok (some { id, fields, address := some address }) table := by
  obtain ⟨cells, hpage, hslot, hpos⟩ := h.cell
  rw [readRecord_eq hpos hpage, bind_ok (run_readCell hslot hreads table)]
  rfl

end Table

end QuasarDB.Storage
