import QuasarDB.Storage.Proofs.DataPage

set_option autoImplicit false

/-! # Runs of a page

Calls that insert and delete keep a page the log of its cells: records get the slots 0, 1, 2 and so on,
and each slot reads its record until it is deleted. This is so as long as no record has a size that wraps
around when the size of its cell is added. -/

namespace QuasarDB.Storage.DataPage

open Prog

/-! ## What a call is meant to do -/

/-- Every other slot reads what it has read before. -/
def SameReads (page page' : DataPage) (slotIdx : UInt32) : Prop :=
  ∀ other : UInt32, other ≠ slotIdx → ∀ (schema : Schema) (interner : Interner),
    (readRecord other schema interner).result page' = (readRecord other schema interner).result page

/-- A record that was stored at a slot is read from it. -/
def ReadsStored (page : DataPage) (slotIdx recordId : UInt32) (payload : List UInt8) : Prop :=
  ∀ (record : Record) (schema : Schema) (interner : Interner),
    record.storedBytes = payload → record.fields.length = schema.size → record.KnownTo interner →
    (readRecord slotIdx schema interner).result page =
      some (some { id := recordId, fields := record.fields })

/-- Nothing is read from a slot. -/
def ReadsNothing (page : DataPage) (slotIdx : UInt32) : Prop :=
  ∀ (schema : Schema) (interner : Interner),
    (readRecord slotIdx schema interner).result page = some none

/-- The record is put at the next slot and nowhere else. -/
structure Inserted (page page' : DataPage) (recordId : UInt32) (payload : List UInt8) : Prop where
  recordCount : page'.recordCount.toNat = page.recordCount.toNat + 1
  nextFreeOffset : page'.nextFreeOffset.toNat =
    page.nextFreeOffset.toNat + (TablePage.cellSize + payload.length)
  reads : page'.ReadsStored page.recordCount recordId payload
  same : page.SameReads page' page.recordCount

/-- The record at a slot is gone, and it alone. -/
structure Deleted (page page' : DataPage) (slotIdx : UInt32) : Prop where
  recordCount : page'.recordCount = page.recordCount
  nextFreeOffset : page'.nextFreeOffset = page.nextFreeOffset
  reads : page'.ReadsNothing slotIdx
  same : page.SameReads page' slotIdx

/-- A call does what it is meant to do. -/
def Call.Kept (page : DataPage) : Call → Prop
  | .insert recordId data =>
      if TablePage.cellSize + data.bytes.length ≤
          TablePage.pageSize - page.nextFreeOffset.toNat then
        ∃ page', insertRecord recordId data page = .ok page.recordCount.toInt32 page' ∧
          page.Inserted page' recordId.toUInt32 data.bytes
      else insertRecord recordId data page = .ok (-1) page
  | .delete slotIdx =>
      if slotIdx < page.recordCount then
        ∃ page', deleteRecord slotIdx page = .ok () page' ∧ page.Deleted page' slotIdx
      else ∃ what, deleteRecord slotIdx page = .error (.exception what) page

/-- The size of the cell is a 32-bit number, or what it wraps around to does not fit either. -/
def Call.Safe (page : DataPage) : Call → Prop
  | .insert _ data =>
      TablePage.cellSize + data.bytes.length < 2 ^ 32 ∨
        page.getFullFreeSpaceSize.toNat < (TablePage.cellSize + data.bytes.length) % 2 ^ 32
  | .delete _ => True

/-- All calls of a run are safe. -/
def SafeRun : List Call → DataPage → Prop
  | [], _ => True
  | call :: calls, page => call.Safe page ∧ SafeRun calls (call.run.after page)

/-! ## The log -/

/-- What a call does to the list of the cells. -/
def Call.onLog (log : List Cell) : Call → List Cell
  | .insert recordId data => (TablePage.insertRecord recordId.toUInt32 data.bytes log).2
  | .delete slotIdx =>
      match TablePage.deleteRecord slotIdx.toNat log with
      | .ok log' => log'
      | .error _ => log

/-- The page is the log of these cells. -/
structure Logs (page : DataPage) (log : List Cell) : Prop where
  recordCount : page.recordCount.toNat = log.length
  nextFreeOffset : page.nextFreeOffset.toNat = TablePage.headerSize +
    (log.map fun cell => TablePage.cellSize + cell.payload.length).sum
  nextFreeOffset_le : page.nextFreeOffset.toNat ≤ TablePage.pageSize
  reads : ∀ slotIdx : UInt32, ∀ cell, log[slotIdx.toNat]? = some cell → cell.deleted = false →
    page.ReadsStored slotIdx cell.recordId cell.payload
  deleted : ∀ slotIdx : UInt32, ∀ cell, log[slotIdx.toNat]? = some cell → cell.deleted = true →
    page.ReadsNothing slotIdx
  behind : ∀ slotIdx : UInt32, log.length ≤ slotIdx.toNat → page.ReadsNothing slotIdx

/-! ## What the bytes say -/

variable {page page' : DataPage} {pageId : UInt32} {laid laid' : List LaidCell}
  {free free' : List UInt8}

theorem nextFreeOffset_cells (laid : List LaidCell) :
    TablePage.nextFreeOffset (laid.map LaidCell.toCell) = freeFrom laid := by
  rw [TablePage.nextFreeOffset, freeFrom, length_flatMap_bytes, List.map_map]
  congr 3
  funext cell
  rw [Function.comp_apply, cell.recordSize_eq]

theorem Holds.readsStored (h : page.Holds pageId laid free) {slotIdx : UInt32} {cell : LaidCell}
    (hcell : laid[slotIdx.toNat]? = some cell) (hdeleted : cell.deleted = false) :
    page.ReadsStored slotIdx cell.recordId cell.payload := by
  intro record schema interner hpayload hfields hknown
  have hsize : cell.recordSize.toNat = record.storedBytes.length := by
    rw [cell.recordSize_eq, hpayload]
  have hread : Record.fromBinary (record.storedBytes ++ []) cell.recordSize cell.recordId schema
      interner () = .ok { id := cell.recordId, fields := record.fields } () :=
    Record.fromBinary_storedBytes hfields hknown hsize [] ()
  rw [List.append_nil, hpayload] at hread
  rw [h.result_readRecord slotIdx schema interner (), TablePage.readRecord, List.getElem?_map, hcell,
    Option.map_some]
  dsimp only
  rw [if_neg (by simp [hdeleted]), result_bind hread]
  rfl

theorem Holds.readsNothing (h : page.Holds pageId laid free) {slotIdx : UInt32}
    (hcell : ∀ cell, laid[slotIdx.toNat]? = some cell → cell.deleted = true) :
    page.ReadsNothing slotIdx := by
  intro schema interner
  rw [h.result_readRecord slotIdx schema interner (), TablePage.readRecord, List.getElem?_map]
  cases hslot : laid[slotIdx.toNat]? with
  | none => rfl
  | some cell =>
      rw [Option.map_some]
      dsimp only
      rw [if_pos (hcell cell hslot)]
      rfl

/-- Reading a slot depends on its cell only. -/
theorem Holds.sameReads (h : page.Holds pageId laid free) (h' : page'.Holds pageId laid' free')
    {slotIdx : UInt32} (hsame : ∀ slot, slot ≠ slotIdx.toNat → laid'[slot]? = laid[slot]?) :
    page.SameReads page' slotIdx := by
  intro other hother schema interner
  have hslot : other.toNat ≠ slotIdx.toNat := fun heq => hother (UInt32.toNat.inj heq)
  rw [h.result_readRecord other schema interner (), h'.result_readRecord other schema interner (),
    TablePage.readRecord, TablePage.readRecord, List.getElem?_map, List.getElem?_map,
    hsame _ hslot]

theorem Holds.logs (h : page.Holds pageId laid free) : page.Logs (laid.map LaidCell.toCell) := by
  constructor
  · rw [List.length_map]
    exact h.recordCount_toNat
  · rw [h.nextFreeOffset_toNat, freeFrom, length_flatMap_bytes, List.map_map]
    rfl
  · rw [h.nextFreeOffset_toNat]
    exact h.freeFrom_le
  · intro slotIdx cell hcell hdeleted
    rw [List.getElem?_map] at hcell
    obtain ⟨found, hfound, rfl⟩ := Option.map_eq_some_iff.1 hcell
    exact h.readsStored hfound hdeleted
  · intro slotIdx cell hcell hdeleted
    rw [List.getElem?_map] at hcell
    obtain ⟨found, hfound, rfl⟩ := Option.map_eq_some_iff.1 hcell
    apply h.readsNothing
    intro cell hcell
    obtain rfl := Option.some.inj (hfound.symm.trans hcell)
    exact hdeleted
  · intro slotIdx hle
    rw [List.length_map] at hle
    apply h.readsNothing
    intro cell hcell
    rw [List.getElem?_eq_none hle] at hcell
    cases hcell

/-! ## Steps -/

theorem Holds.free_eq (h : page.Holds pageId laid free) :
    TablePage.pageSize - page.nextFreeOffset.toNat = free.length := by
  have hfill := h.length_free
  rw [h.nextFreeOffset_toNat]
  omega

/-- The number of a slot is not what stands for no slot. -/
theorem slot_ne {count : Nat} (h : count ≤ 340) : (UInt32.ofNat count).toInt32 ≠ -1 := by
  intro hslot
  have htoInt : (UInt32.ofNat count).toInt32.toInt = count :=
    Int32.toInt_ofNat_of_lt (by omega)
  rw [hslot] at htoInt
  have hneg : (-1 : Int32).toInt = -1 := by decide
  rw [hneg] at htoInt
  omega

/-- What a call leaves behind, and the slot that it gives out. -/
structure Step (page : DataPage) (pageId : UInt32) (laid : List LaidCell) (call : Call)
    (laid' : List LaidCell) : Prop where
  holds : ∃ free', (call.run.after page).Holds pageId laid' free'
  log : laid'.map LaidCell.toCell = call.onLog (laid.map LaidCell.toCell)
  kept : call.Kept page
  length_le : laid.length ≤ laid'.length
  slots : (call.run.result page).join.toList =
    (List.range' laid.length (laid'.length - laid.length)).map fun slot => Int32.ofNat slot

/-- A record that fits. -/
theorem Holds.step_insert (h : page.Holds pageId laid free) {recordId : Int32} {data : Payload}
    (hfits : TablePage.cellSize + data.bytes.length ≤ free.length) :
    ∃ laid', Step page pageId laid (.insert recordId data) laid' := by
  have hcount := h.recordCount_toNat
  obtain ⟨page', cell, free', hrun, hcell, h'⟩ := h.run_insertRecord recordId hfits
  have hid : cell.recordId = recordId.toUInt32 := by rw [hcell]
  have hpayload : cell.payload = data.bytes := by rw [hcell]
  have hdeleted : cell.deleted = false := by rw [hcell]
  have hslot : (laid ++ [cell])[page.recordCount.toNat]? = some cell := by
    rw [hcount, List.getElem?_concat_length]
  have hcall : (Call.insert recordId data).run page = .ok (some page.recordCount.toInt32) page' := by
    rw [Call.run, bind_ok hrun, h.recordCount_eq, if_neg (slot_ne h.length_le)]
    rfl
  refine ⟨laid ++ [cell], ⟨free', ?_⟩, ?_, ?_, ?_, ?_⟩
  · rw [after_ok hcall]
    exact h'
  · have hroom : ¬ TablePage.pageSize - freeFrom laid < TablePage.cellSize + data.bytes.length := by
      rw [← h.nextFreeOffset_toNat, h.free_eq]
      omega
    rw [Call.onLog, TablePage.insertRecord, nextFreeOffset_cells, if_neg hroom, List.map_append,
      List.map_singleton, hcell]
    rfl
  · rw [Call.Kept, h.free_eq, if_pos hfits]
    refine ⟨page', hrun, ?_, ?_, ?_, ?_⟩
    · rw [h'.recordCount_toNat, hcount, List.length_append, List.length_singleton]
    · rw [h'.nextFreeOffset_toNat, h.nextFreeOffset_toNat, freeFrom_append, hpayload]
    · rw [← hid, ← hpayload]
      exact h'.readsStored hslot hdeleted
    · apply h.sameReads h'
      intro slot hne
      rw [hcount] at hne
      by_cases hlt : slot < laid.length
      · rw [List.getElem?_append_left hlt]
      · rw [List.getElem?_eq_none (not_lt.1 hlt), List.getElem?_eq_none]
        rw [List.length_append, List.length_singleton]
        omega
  · rw [List.length_append]
    omega
  · rw [result_ok hcall, h.recordCount_eq, List.length_append, Nat.add_sub_cancel_left]
    rfl

/-- A call that changes no cell. -/
theorem Holds.step_same (h : page.Holds pageId laid free) {call : Call}
    (hafter : call.run.after page = page) (hresult : (call.run.result page).join = none)
    (hlog : call.onLog (laid.map LaidCell.toCell) = laid.map LaidCell.toCell)
    (hkept : call.Kept page) : ∃ laid', Step page pageId laid call laid' := by
  refine ⟨laid, ⟨free, ?_⟩, hlog.symm, hkept, Nat.le_refl _, ?_⟩
  · rw [hafter]
    exact h
  · rw [hresult, Nat.sub_self]
    rfl

/-- A record that does not fit. -/
theorem Holds.step_full (h : page.Holds pageId laid free) {recordId : Int32} {data : Payload}
    (hfits : ¬ TablePage.cellSize + data.bytes.length ≤ free.length)
    (hsafe : (Call.insert recordId data).Safe page) :
    ∃ laid', Step page pageId laid (.insert recordId data) laid' := by
  have hfull : free.length < (12 + data.bytes.length) % 2 ^ 32 := by
    rw [Call.Safe, TablePage.cellSize, h.fullFreeSpace_toNat] at hsafe
    have hfill := h.length_free
    rw [TablePage.pageSize] at hfill
    rw [TablePage.cellSize] at hfits
    rcases hsafe with hsmall | hwrapped
    · rw [Nat.mod_eq_of_lt hsmall]
      omega
    · omega
  have hrun := h.insertRecord_full recordId hfull
  have hcall : (Call.insert recordId data).run page = .ok none page := by
    rw [Call.run, bind_ok hrun, if_pos rfl]
    rfl
  apply h.step_same (after_ok hcall)
  · rw [result_ok hcall]
    rfl
  · have hroom : TablePage.pageSize - freeFrom laid < TablePage.cellSize + data.bytes.length := by
      rw [← h.nextFreeOffset_toNat, h.free_eq]
      omega
    rw [Call.onLog, TablePage.insertRecord, nextFreeOffset_cells, if_pos hroom]
  · rw [Call.Kept, h.free_eq, if_neg hfits]
    exact hrun

theorem Holds.step_delete (h : page.Holds pageId laid free) (slotIdx : UInt32) :
    ∃ laid', Step page pageId laid (.delete slotIdx) laid' := by
  have hcount := h.recordCount_toNat
  by_cases hin : slotIdx < page.recordCount
  · have hlt : slotIdx.toNat < laid.length := by
      rw [← hcount]
      exact UInt32.lt_iff_toNat_lt.1 hin
    have hcell := List.getElem?_eq_getElem hlt
    generalize laid[slotIdx.toNat] = cell at hcell
    obtain ⟨page', hrun, h'⟩ := h.run_deleteRecord hcell
    have hcall : (Call.delete slotIdx).run page = .ok none page' := by
      rw [Call.run, bind_ok hrun]
      rfl
    refine ⟨laid.set slotIdx.toNat { cell with deleted := true }, ⟨free, ?_⟩, ?_, ?_,
      Nat.le_of_eq (List.length_set).symm, ?_⟩
    · rw [after_ok hcall]
      exact h'
    · rw [Call.onLog, TablePage.deleteRecord, List.getElem?_map, hcell, Option.map_some]
      dsimp only
      rw [List.map_set]
    · rw [Call.Kept, if_pos hin]
      refine ⟨page', hrun, ?_, ?_, ?_, ?_⟩
      · rw [h'.recordCount_eq, h.recordCount_eq, List.length_set]
      · rw [h'.nextFreeOffset_eq, h.nextFreeOffset_eq, freeFrom_set hcell]
      · apply h'.readsNothing
        intro found hfound
        rw [List.getElem?_set_self hlt] at hfound
        obtain rfl := Option.some.inj hfound
        rfl
      · apply h.sameReads h'
        intro slot hne
        rw [List.getElem?_set_ne (Ne.symm hne)]
    · rw [result_ok hcall, List.length_set, Nat.sub_self]
      rfl
  · have hle : page.recordCount ≤ slotIdx := UInt32.not_lt.1 hin
    have hrun := deleteRecord_of_le hle
    have hcall : (Call.delete slotIdx).run page = .error _ page := bind_error hrun
    refine h.step_same (after_error hcall) ?_ ?_ ?_
    · rw [result_error hcall]
      rfl
    · have hnone : (laid.map LaidCell.toCell)[slotIdx.toNat]? = none := by
        rw [List.getElem?_eq_none_iff, List.length_map, ← hcount]
        exact UInt32.le_iff_toNat_le.1 hle
      rw [Call.onLog, TablePage.deleteRecord, hnone]
    · rw [Call.Kept, if_neg hin]
      exact ⟨_, hrun⟩

theorem Holds.step (h : page.Holds pageId laid free) {call : Call} (hsafe : call.Safe page) :
    ∃ laid', Step page pageId laid call laid' := by
  cases call with
  | insert recordId data =>
      by_cases hfits : TablePage.cellSize + data.bytes.length ≤ free.length
      · exact h.step_insert hfits
      · exact h.step_full hfits hsafe
  | delete slotIdx => exact h.step_delete slotIdx

/-- A call that is not safe writes outside of the page. -/
theorem Holds.kept_iff (h : page.Holds pageId laid free) (call : Call) :
    call.Kept page ↔ call.Safe page := by
  constructor
  · intro hkept
    cases call with
    | delete slotIdx => trivial
    | insert recordId data =>
        by_contra hunsafe
        rw [Call.Safe, h.fullFreeSpace_toNat, TablePage.cellSize, not_or, not_lt, not_lt] at hunsafe
        obtain ⟨hlarge, hroom⟩ := hunsafe
        have hfill := h.length_free
        rw [TablePage.pageSize] at hfill
        have hfits : ¬ TablePage.cellSize + data.bytes.length ≤ free.length := by
          rw [TablePage.cellSize]
          omega
        rw [Call.Kept, h.free_eq, if_neg hfits] at hkept
        exact h.insertRecord_overflow recordId (by omega) (by omega) (-1) page hkept
  · intro hsafe
    obtain ⟨laid', hstep⟩ := h.step hsafe
    exact hstep.kept

/-! ## Runs -/

/-- A safe run appends to the log and gives out the slots that follow. -/
theorem Holds.run : ∀ {calls : List Call} {page : DataPage} {laid : List LaidCell}
    {free : List UInt8}, page.Holds pageId laid free → SafeRun calls page →
    ∃ laid' free', (runCalls calls page).2.Holds pageId laid' free' ∧
      laid'.map LaidCell.toCell = calls.foldl Call.onLog (laid.map LaidCell.toCell) ∧
      laid.length ≤ laid'.length ∧
      (runCalls calls page).1 =
        (List.range' laid.length (laid'.length - laid.length)).map fun slot => Int32.ofNat slot := by
  intro calls
  induction calls with
  | nil =>
      intro page laid free h hsafe
      refine ⟨laid, free, h, rfl, Nat.le_refl _, ?_⟩
      rw [Nat.sub_self]
      rfl
  | cons call calls ih =>
      intro page laid free h hsafe
      obtain ⟨hcall, hcalls⟩ := hsafe
      obtain ⟨laid₁, hstep⟩ := h.step hcall
      obtain ⟨free₁, h₁⟩ := hstep.holds
      obtain ⟨laid', free', h', hlog, hle, hslots⟩ := ih h₁ hcalls
      refine ⟨laid', free', h', ?_, Nat.le_trans hstep.length_le hle, ?_⟩
      · rw [hlog, hstep.log, List.foldl_cons]
      · have hmiddle : laid₁.length = laid.length + (laid₁.length - laid.length) := by
          have hfirst := hstep.length_le
          omega
        have htotal : laid'.length - laid.length =
            (laid₁.length - laid.length) + (laid'.length - laid₁.length) := by
          have hfirst := hstep.length_le
          omega
        have hcons : (runCalls (call :: calls) page).1 =
            (call.run.result page).join.toList ++ (runCalls calls (call.run.after page)).1 := rfl
        rw [hcons, hslots, hstep.slots, ← List.map_append, htotal, ← List.range'_append_1,
          ← hmiddle]

/-- On a new page, whatever memory and file held before it was made, a safe run leaves the log of its
    calls and gives out each slot once, and then every call does what it is meant to do if and only if it
    is safe. -/
theorem runCalls_create (memory : DataPage) (pageId : UInt32) :
    ∃ page, create pageId memory = .ok () page ∧ ∀ calls, SafeRun calls page →
      (runCalls calls page).2.Logs (calls.foldl Call.onLog []) ∧
      (runCalls calls page).1 =
        (List.range (calls.foldl Call.onLog []).length).map (fun slot => Int32.ofNat slot) ∧
      ∀ call : Call, call.Kept (runCalls calls page).2 ↔ call.Safe (runCalls calls page).2 := by
  obtain ⟨page, free, hcreate, h⟩ := run_create memory pageId
  refine ⟨page, hcreate, ?_⟩
  intro calls hsafe
  obtain ⟨laid', free', h', hlog, -, hslots⟩ := h.run hsafe
  rw [List.map_nil] at hlog
  rw [← hlog]
  refine ⟨h'.logs, ?_, h'.kept_iff⟩
  rw [hslots, List.length_map, List.range_eq_range']
  rfl

/-! Two records on a page, of which one is deleted. -/

def blankPage : DataPage where
  data := ⟨List.replicate TablePage.pageSize 0, List.length_replicate⟩
  saved := ⟨List.replicate TablePage.pageSize 0, List.length_replicate⟩

def twoRecords : List Call :=
  [.insert 1 ⟨[0], by decide⟩, .insert 2 ⟨[1, 9, 0, 0, 0], by decide⟩, .delete 0, .delete 5]

theorem runCalls_create_two :
    ∃ page, create 3 blankPage = .ok () page ∧
      (runCalls twoRecords page).1 = [0, 1] ∧
      (runCalls twoRecords page).2.Logs
        [{ recordId := 1, recordSize := 1, deleted := true, payload := [0] },
          { recordId := 2, recordSize := 5, payload := [1, 9, 0, 0, 0] }] := by
  obtain ⟨page, hcreate, hall⟩ := runCalls_create blankPage 3
  have hsafe : SafeRun twoRecords page :=
    ⟨Or.inl (by decide), Or.inl (by decide), trivial, trivial, trivial⟩
  obtain ⟨hlogs, hslots, -⟩ := hall twoRecords hsafe
  exact ⟨page, hcreate, hslots, hlogs⟩

/-! With `2 ^ 32 - 1` bytes, the cell seems to take 11 bytes. -/

def longPayload : Payload where
  bytes := List.replicate (2 ^ 32 - 1) 0
  length_lt := by
    rw [List.length_replicate]
    decide

/-- The record is not refused. -/
theorem insertRecord_long :
    ∃ page, create 3 blankPage = .ok () page ∧ ¬ (Call.insert 1 longPayload).Kept page ∧
      insertRecord 1 longPayload page ≠ .ok (-1) page := by
  obtain ⟨page, free, hcreate, h⟩ := run_create blankPage 3
  have hlength : longPayload.bytes.length = 2 ^ 32 - 1 := List.length_replicate
  have hfree : free.length = 4084 := by
    have hfill := h.length_free
    rw [TablePage.pageSize, freeFrom, TablePage.headerSize, List.flatMap_nil, List.length_nil] at hfill
    omega
  refine ⟨page, hcreate, ?_, ?_⟩
  · rw [h.kept_iff, Call.Safe, h.fullFreeSpace_toNat, hlength, TablePage.cellSize]
    rw [freeFrom, TablePage.headerSize, List.flatMap_nil, List.length_nil]
    omega
  · apply h.insertRecord_overflow 1
    · rw [hlength]
      omega
    · rw [hlength, hfree]
      omega

end QuasarDB.Storage.DataPage
