import QuasarDB.Storage.DataPage
import QuasarDB.Storage.Proofs.RecordCodec

set_option autoImplicit false

/-! # A page is the log of its cells

The bytes of a page are its header and its cells, one behind the other, so that walking over the sizes
finds each of them. A cell is put behind the last one and is marked in place: the bytes of the others
are not written again. -/

namespace QuasarDB.Storage

open Prog

/-! ## Cells in memory -/

/-- A cell as it is in memory: three bytes of it are never written. -/
structure LaidCell extends Cell where
  padding : List UInt8
  length_padding : padding.length = 3
  recordSize_eq : recordSize.toNat = payload.length

namespace LaidCell

def flag (deleted : Bool) : List UInt8 := if deleted then [1] else [0]

def bytes (laid : LaidCell) : List UInt8 :=
  wordBytes laid.recordId ++ (wordBytes laid.recordSize ++ (flag laid.deleted ++ (laid.padding ++
    laid.payload)))

@[simp] theorem length_flag (deleted : Bool) : (flag deleted).length = 1 := by
  cases deleted <;> rfl

theorem length_bytes (laid : LaidCell) :
    laid.bytes.length = TablePage.cellSize + laid.payload.length := by
  simp only [bytes, List.length_append, length_wordBytes, length_flag, laid.length_padding,
    TablePage.cellSize]
  omega

end LaidCell

namespace DataPage

/-- Where the free space starts. -/
def freeFrom (laid : List LaidCell) : Nat :=
  TablePage.headerSize + (laid.flatMap LaidCell.bytes).length

def header (pageId : UInt32) (laid : List LaidCell) : List UInt8 :=
  wordBytes pageId ++ (wordBytes (.ofNat laid.length) ++ wordBytes (.ofNat (freeFrom laid)))

theorem length_header (pageId : UInt32) (laid : List LaidCell) :
    (header pageId laid).length = TablePage.headerSize := by
  simp only [header, List.length_append, length_wordBytes, TablePage.headerSize]

/-- The page has these cells. -/
structure Holds (page : DataPage) (pageId : UInt32) (laid : List LaidCell) (free : List UInt8) :
    Prop where
  bytes : page.data.bytes = header pageId laid ++ (laid.flatMap LaidCell.bytes ++ free)

variable {page : DataPage} {pageId : UInt32} {laid : List LaidCell} {free : List UInt8}

theorem length_flatMap_bytes : (laid.flatMap LaidCell.bytes).length =
    (laid.map fun cell => TablePage.cellSize + cell.payload.length).sum := by
  rw [List.length_flatMap]
  congr 2
  funext cell
  exact cell.length_bytes

theorem cellSize_mul_le_length (laid : List LaidCell) : TablePage.cellSize * laid.length ≤
    (laid.flatMap LaidCell.bytes).length := by
  induction laid with
  | nil => exact Nat.le_refl _
  | cons cell laid ih =>
      have hcell := cell.length_bytes
      rw [List.length_cons, List.flatMap_cons, List.length_append]
      rw [Nat.mul_succ]
      omega

namespace Holds

/-- The cells and the free space fill the page. -/
theorem length_free (h : page.Holds pageId laid free) :
    freeFrom laid + free.length = TablePage.pageSize := by
  have hlength := congrArg List.length h.bytes
  rw [page.data.length_bytes] at hlength
  rw [List.length_append, List.length_append, length_header] at hlength
  rw [freeFrom]
  omega

theorem freeFrom_le (h : page.Holds pageId laid free) : freeFrom laid ≤ 4096 := by
  have hfill := h.length_free
  rw [TablePage.pageSize] at hfill
  omega

theorem length_le (h : page.Holds pageId laid free) : laid.length ≤ 340 := by
  have hle := h.freeFrom_le
  have hcells := cellSize_mul_le_length laid
  rw [TablePage.cellSize] at hcells
  rw [freeFrom, TablePage.headerSize] at hle
  omega

theorem headerWord_eq {front back : List UInt8} {word : UInt32} {offset : Nat}
    (hbytes : page.data.bytes = front ++ (wordBytes word ++ back)) (hoffset : front.length = offset) :
    page.headerWord offset = word := by
  have htake : (wordBytes word ++ back).take 4 = wordBytes word :=
    List.take_left' (length_wordBytes word)
  rw [headerWord, hbytes, ← hoffset, List.drop_left, htake, wordOfBytes_wordBytes]

theorem id_eq (h : page.Holds pageId laid free) : page.id = pageId := by
  have hbytes := h.bytes
  rw [header, List.append_assoc, ← List.nil_append (wordBytes pageId ++ _)] at hbytes
  exact headerWord_eq hbytes rfl

theorem recordCount_eq (h : page.Holds pageId laid free) :
    page.recordCount = .ofNat laid.length := by
  have hbytes := h.bytes
  rw [header, List.append_assoc, List.append_assoc] at hbytes
  exact headerWord_eq hbytes (length_wordBytes pageId)

theorem nextFreeOffset_eq (h : page.Holds pageId laid free) :
    page.nextFreeOffset = .ofNat (freeFrom laid) := by
  have hbytes := h.bytes
  rw [header, ← List.append_assoc (wordBytes pageId), List.append_assoc] at hbytes
  refine headerWord_eq hbytes ?_
  rw [List.length_append, length_wordBytes, length_wordBytes]

theorem recordCount_toNat (h : page.Holds pageId laid free) :
    page.recordCount.toNat = laid.length := by
  have hle := h.length_le
  rw [h.recordCount_eq, UInt32.toNat_ofNat', Nat.mod_eq_of_lt (by omega)]

theorem nextFreeOffset_toNat (h : page.Holds pageId laid free) :
    page.nextFreeOffset.toNat = freeFrom laid := by
  have hle := h.freeFrom_le
  rw [h.nextFreeOffset_eq, UInt32.toNat_ofNat', Nat.mod_eq_of_lt (by omega)]

theorem fullFreeSpace_toNat (h : page.Holds pageId laid free) :
    page.getFullFreeSpaceSize.toNat = 4096 - freeFrom laid := by
  have hle := h.freeFrom_le
  have hnext := h.nextFreeOffset_toNat
  have hsub : page.nextFreeOffset ≤ 4096 := by
    rw [UInt32.le_iff_toNat_le, hnext]
    exact hle
  rw [getFullFreeSpaceSize, UInt32.toNat_sub_of_le _ _ hsub, hnext]
  rfl

end Holds

/-! ## Finding a cell -/

theorem run_onData {α : Type} {x : Prog (Memory TablePage.pageSize) α} {a : α}
    {data : Memory TablePage.pageSize} (h : x page.data = .ok a data) :
    onData x page = .ok a { page with data } := by
  rw [onData, run_on, h]

/-- The loop stops behind the cells it walked over. -/
theorem run_cellOffset {memory : Memory TablePage.pageSize} {before : List LaidCell} :
    ∀ {front back : List UInt8}, memory.bytes = front ++ (before.flatMap LaidCell.bytes ++ back) →
    cellOffset before.length (.ofNat front.length) memory =
      .ok (.ofNat (front.length + (before.flatMap LaidCell.bytes).length)) memory := by
  induction before with
  | nil =>
      intro front back hbytes
      rfl
  | cons cell before ih =>
      intro front back hbytes
      have hsize := congrArg List.length hbytes
      rw [memory.length_bytes, TablePage.pageSize] at hsize
      simp only [List.length_append, List.flatMap_cons] at hsize
      have hfront : (UInt32.ofNat front.length).toNat = front.length := by
        rw [UInt32.toNat_ofNat', Nat.mod_eq_of_lt (by omega)]
      have hload : Memory.loadWord (front.length + 4) memory = .ok cell.recordSize memory := by
        have hword : memory.bytes = front ++ wordBytes cell.recordId ++ wordBytes cell.recordSize ++
            (LaidCell.flag cell.deleted ++ (cell.padding ++ (cell.payload ++
              (before.flatMap LaidCell.bytes ++ back)))) := by
          rw [hbytes, List.flatMap_cons, LaidCell.bytes]
          simp only [List.append_assoc]
        refine Memory.run_loadWord hword ?_
        rw [List.length_append, length_wordBytes]
      have hnext : UInt32.ofNat front.length + (.ofNat TablePage.cellSize + cell.recordSize) =
          .ofNat (front ++ cell.bytes).length := by
        have hcell := cell.length_bytes
        have hrecord := cell.recordSize_eq
        apply UInt32.toNat.inj
        rw [UInt32.toNat_add, UInt32.toNat_add, UInt32.toNat_ofNat', UInt32.toNat_ofNat',
          UInt32.toNat_ofNat', List.length_append, hrecord, hcell]
        simp only [TablePage.cellSize]
        omega
      have hrest : memory.bytes = front ++ cell.bytes ++ (before.flatMap LaidCell.bytes ++ back) := by
        rw [hbytes, List.flatMap_cons, List.append_assoc, List.append_assoc]
      rw [List.length_cons, cellOffset, hfront, bind_ok hload, hnext, ih hrest, List.flatMap_cons,
        List.length_append, List.length_append, Nat.add_assoc]

/-- A cell is found behind the header and the cells before it. -/
theorem Holds.run_cellAt {before after : List LaidCell} {cell : LaidCell} {slotIdx : UInt32}
    (h : page.Holds pageId (before ++ cell :: after) free) (hslot : slotIdx.toNat = before.length) :
    cellAt slotIdx page.data =
      .ok (header pageId (before ++ cell :: after) ++ before.flatMap LaidCell.bytes).length
        page.data := by
  have hbytes : page.data.bytes = header pageId (before ++ cell :: after) ++
      (before.flatMap LaidCell.bytes ++ (cell.bytes ++ (after.flatMap LaidCell.bytes ++ free))) := by
    rw [h.bytes, List.flatMap_append, List.flatMap_cons]
    simp only [List.append_assoc]
  have hle : TablePage.headerSize + (before.flatMap LaidCell.bytes).length ≤ 4096 := by
    have hle := h.freeFrom_le
    rw [freeFrom, List.flatMap_append, List.length_append] at hle
    omega
  have hrun := run_cellOffset hbytes
  rw [length_header] at hrun
  rw [cellAt, hslot, bind_ok hrun, List.length_append, length_header, UInt32.toNat_ofNat',
    Nat.mod_eq_of_lt (by omega)]
  rfl

theorem exists_split {slot : Nat} {cell : LaidCell} (h : laid[slot]? = some cell) :
    ∃ before after, laid = before ++ cell :: after ∧ before.length = slot := by
  obtain ⟨hlt, hcell⟩ := List.getElem?_eq_some_iff.1 h
  refine ⟨laid.take slot, laid.drop (slot + 1), ?_, List.length_take_of_le (Nat.le_of_lt hlt)⟩
  rw [← hcell, ← List.drop_eq_getElem_cons hlt, List.take_append_drop]

/-- The parts of a page around the deletion mark of a cell. -/
theorem Holds.bytes_flag {before after : List LaidCell} {cell : LaidCell}
    (h : page.Holds pageId (before ++ cell :: after) free) :
    page.data.bytes = (header pageId (before ++ cell :: after) ++ before.flatMap LaidCell.bytes ++
        wordBytes cell.recordId ++ wordBytes cell.recordSize) ++ LaidCell.flag cell.deleted ++
      (cell.padding ++ (cell.payload ++ (after.flatMap LaidCell.bytes ++ free))) := by
  rw [h.bytes, List.flatMap_append, List.flatMap_cons, LaidCell.bytes]
  simp only [List.append_assoc]

theorem Holds.run_loadFlag {before after : List LaidCell} {cell : LaidCell} {offset : Nat}
    (h : page.Holds pageId (before ++ cell :: after) free)
    (hoffset : (header pageId (before ++ cell :: after) ++ before.flatMap LaidCell.bytes).length =
      offset) :
    Memory.load (offset + 8) 1 page.data = .ok (LaidCell.flag cell.deleted) page.data := by
  refine Memory.run_load h.bytes_flag ?_ (LaidCell.length_flag cell.deleted)
  rw [List.length_append, List.length_append, length_wordBytes, length_wordBytes, hoffset]

/-! ## Reading -/

variable {σ : Type}

/-- What a slot says: nothing, or what `FromBinary` finds from the bytes of its cell on. -/
theorem Holds.outcome_readRecord (h : page.Holds pageId laid free) (slotIdx : UInt32) (schema : Schema)
    (interner : Interner) (s : σ) : ∃ behind,
    (readRecord slotIdx schema interner).outcome page =
      match laid[slotIdx.toNat]? with
      | none => .ok none
      | some cell =>
          if cell.deleted then .ok none
          else ((Record.fromBinary (cell.payload ++ behind) cell.recordSize cell.recordId schema
            interner).outcome s).map some := by
  have hcount := h.recordCount_toNat
  rw [readRecord, outcome_bind (run_get page)]
  cases hcell : laid[slotIdx.toNat]? with
  | none =>
      have hle := List.getElem?_eq_none_iff.1 hcell
      rw [if_pos (by rw [UInt32.le_iff_toNat_le]; omega)]
      exact ⟨[], rfl⟩
  | some cell =>
      obtain ⟨hlt, -⟩ := List.getElem?_eq_some_iff.1 hcell
      obtain ⟨before, after, rfl, hslot⟩ := exists_split hcell
      refine ⟨after.flatMap LaidCell.bytes ++ free, ?_⟩
      rw [if_neg (by rw [UInt32.le_iff_toNat_le]; omega), onData, outcome_on,
        outcome_bind (h.run_cellAt hslot.symm), outcome_bind (h.run_loadFlag rfl)]
      have hbytes : page.data.bytes =
          header pageId (before ++ cell :: after) ++ before.flatMap LaidCell.bytes ++
            (wordBytes cell.recordId ++ (wordBytes cell.recordSize ++
              (LaidCell.flag cell.deleted ++ (cell.padding ++ (cell.payload ++
                (after.flatMap LaidCell.bytes ++ free)))))) := by
        rw [h.bytes_flag]
        simp only [List.append_assoc]
      generalize header pageId (before ++ cell :: after) ++ before.flatMap LaidCell.bytes = front
        at hbytes
      cases hdeleted : cell.deleted with
      | true =>
          dsimp only
          rw [if_pos hdeleted, if_pos (by decide)]
          rfl
      | false =>
          have hid : Memory.loadWord front.length page.data = .ok cell.recordId page.data := by
            rw [← List.append_assoc] at hbytes
            exact Memory.run_loadWord hbytes rfl
          have hsize : Memory.loadWord (front.length + 4) page.data =
              .ok cell.recordSize page.data := by
            rw [← List.append_assoc, ← List.append_assoc] at hbytes
            refine Memory.run_loadWord hbytes ?_
            rw [List.length_append, length_wordBytes]
          have hpayload : page.data.bytes.drop (front.length + TablePage.cellSize) =
              cell.payload ++ (after.flatMap LaidCell.bytes ++ free) := by
            have hsplit : page.data.bytes = (front ++ (wordBytes cell.recordId ++
                (wordBytes cell.recordSize ++ (LaidCell.flag cell.deleted ++ cell.padding)))) ++
                  (cell.payload ++ (after.flatMap LaidCell.bytes ++ free)) := by
              rw [hbytes]
              simp only [List.append_assoc]
            rw [hsplit]
            refine List.drop_left' ?_
            simp only [List.length_append, length_wordBytes, LaidCell.length_flag,
              cell.length_padding, TablePage.cellSize]
          have hagain : ∀ {x : Memory TablePage.pageSize},
              (Record.fromBinary (cell.payload ++ (after.flatMap LaidCell.bytes ++ free)) cell.recordSize
                cell.recordId schema interner).outcome x =
              (Record.fromBinary (cell.payload ++ (after.flatMap LaidCell.bytes ++ free)) cell.recordSize
                cell.recordId schema interner).outcome s := Record.outcome_fromBinary _ _
          rw [if_neg (by simp [LaidCell.flag]), outcome_bind hid, outcome_bind hsize, hpayload,
            outcome_bind_pure, hagain]
          dsimp only
          rw [if_neg (by simp [hdeleted])]

/-- What a slot reads is what the list of the cells reads at it. -/
theorem Holds.result_readRecord (h : page.Holds pageId laid free) (slotIdx : UInt32) (schema : Schema)
    (interner : Interner) (s : σ) :
    (readRecord slotIdx schema interner).result page =
      (TablePage.readRecord slotIdx.toNat schema interner (laid.map LaidCell.toCell)).result s := by
  obtain ⟨behind, hread⟩ := h.outcome_readRecord slotIdx schema interner s
  rw [result_eq_outcome, hread, TablePage.readRecord, List.getElem?_map]
  cases laid[slotIdx.toNat]? with
  | none => rfl
  | some cell =>
      rw [Option.map_some]
      dsimp only
      cases hdeleted : cell.deleted with
      | true =>
          rw [if_pos rfl, if_pos rfl]
          rfl
      | false =>
          have halone : (Record.fromBinary (cell.payload ++ behind) cell.recordSize cell.recordId schema
              interner).result s = _ := @Record.result_fromBinary_append _ _ _ _ _ _ _ _ _ s
                cell.recordSize_eq.symm
          rw [if_neg Bool.false_ne_true, if_neg Bool.false_ne_true, result_bind_pure, ← halone,
            result_eq_outcome]
          cases (Record.fromBinary _ _ _ _ _).outcome s <;> rfl

/-! ## Changes -/

theorem exists_cut {bytes : List UInt8} {count : Nat} (h : count ≤ bytes.length) :
    ∃ front back, bytes = front ++ back ∧ front.length = count :=
  ⟨bytes.take count, bytes.drop count, (List.take_append_drop count bytes).symm,
    List.length_take_of_le h⟩

/-- A new page has no cells, whatever memory and file held. -/
theorem run_create (memory : DataPage) (pageId : UInt32) :
    ∃ page free, create pageId memory = .ok () page ∧ page.Holds pageId [] free := by
  have hlength : memory.data.bytes.length = 4096 := memory.data.length_bytes
  obtain ⟨a, rest₁, hcut₁, ha⟩ : ∃ a rest, memory.data.bytes = a ++ rest ∧ a.length = 4 :=
    exists_cut (by omega)
  rw [hcut₁, List.length_append] at hlength
  obtain ⟨b, rest₂, rfl, hb⟩ : ∃ b rest, rest₁ = b ++ rest ∧ b.length = 4 :=
    exists_cut (by omega)
  rw [List.length_append] at hlength
  obtain ⟨c, free, rfl, hc⟩ : ∃ c rest, rest₂ = c ++ rest ∧ c.length = 4 :=
    exists_cut (by omega)
  have hmemory : memory.data.bytes = [] ++ a ++ (b ++ (c ++ free)) := hcut₁
  obtain ⟨data₁, hstore₁, hdata₁⟩ := Memory.run_storeWord 0 hmemory List.length_nil ha
  rw [List.nil_append, ← List.append_assoc] at hdata₁
  obtain ⟨data₂, hstore₂, hdata₂⟩ := Memory.run_storeWord 0 hdata₁ (length_wordBytes 0) hb
  rw [← List.append_assoc] at hdata₂
  have height : (wordBytes 0 ++ wordBytes 0).length = 8 := by
    rw [List.length_append, length_wordBytes]
  obtain ⟨data₃, hstore₃, hdata₃⟩ :=
    Memory.run_storeWord (.ofNat TablePage.headerSize) hdata₂ height hc
  rw [List.append_assoc, List.append_assoc, ← List.nil_append (wordBytes 0 ++ _)] at hdata₃
  rw [← List.append_assoc] at hdata₃
  obtain ⟨data₄, hstore₄, hdata₄⟩ := Memory.run_storeWord pageId hdata₃ List.length_nil (length_wordBytes 0)
  have hheld : DataPage.Holds ⟨data₄, data₄⟩ pageId [] free := by
    constructor
    rw [hdata₄, header, List.nil_append, List.append_assoc, List.append_assoc]
    rfl
  have hrun : onData (do
      Memory.storeWord 0 0
      Memory.storeWord 4 0
      Memory.storeWord 8 (.ofNat TablePage.headerSize)
      Memory.storeWord 0 pageId) memory = .ok () { memory with data := data₄ } := by
    apply run_onData
    rw [bind_ok hstore₁, bind_ok hstore₂, bind_ok hstore₃, hstore₄]
  have hid : (DataPage.id ⟨data₄, data₄⟩ != pageId) = false := by
    rw [hheld.id_eq, bne_self_eq_false]
  refine ⟨⟨data₄, data₄⟩, free, ?_, hheld⟩
  rw [create, bind_ok hrun, saveToDisk, run_modify_bind, run_modify_bind, run_get_bind]
  dsimp only
  rw [hid]
  rfl

theorem freeFrom_append (laid : List LaidCell) (cell : LaidCell) :
    freeFrom (laid ++ [cell]) = freeFrom laid + (TablePage.cellSize + cell.payload.length) := by
  rw [freeFrom, List.flatMap_append, List.length_append, List.flatMap_singleton, cell.length_bytes,
    freeFrom, Nat.add_assoc]

/-- The four stores to a new cell. -/
theorem exists_stores {memory : Memory TablePage.pageSize} {front free : List UInt8} {offset : Nat}
    (recordId : UInt32) (data : Payload) (hbytes : memory.bytes = front ++ free)
    (hoffset : front.length = offset)
    (hfits : TablePage.cellSize + data.bytes.length ≤ free.length) :
    ∃ memory₁ memory₂ memory₃ memory₄ cell free',
      Memory.storeWord offset recordId memory = .ok () memory₁ ∧
      Memory.storeWord (offset + 4) data.size memory₁ = .ok () memory₂ ∧
      Memory.store (offset + 8) [0] memory₂ = .ok () memory₃ ∧
      Memory.store (offset + TablePage.cellSize) data.bytes memory₃ = .ok () memory₄ ∧
      cell.toCell = { recordId, recordSize := data.size, payload := data.bytes } ∧
      memory₄.bytes = front ++ (LaidCell.bytes cell ++ free') := by
  rw [TablePage.cellSize] at hfits
  obtain ⟨a, rest, rfl, ha⟩ : ∃ a rest, free = a ++ rest ∧ a.length = 4 := exists_cut (by omega)
  rw [List.length_append] at hfits
  obtain ⟨b, rest, rfl, hb⟩ : ∃ b rest', rest = b ++ rest' ∧ b.length = 4 := exists_cut (by omega)
  rw [List.length_append] at hfits
  obtain ⟨c, rest, rfl, hc⟩ : ∃ c rest', rest = c ++ rest' ∧ c.length = 1 := exists_cut (by omega)
  rw [List.length_append] at hfits
  obtain ⟨padding, rest, rfl, hpadding⟩ : ∃ padding rest', rest = padding ++ rest' ∧
      padding.length = 3 := exists_cut (by omega)
  rw [List.length_append] at hfits
  obtain ⟨d, free', rfl, hd⟩ : ∃ d rest', rest = d ++ rest' ∧ d.length = data.bytes.length :=
    exists_cut (by omega)
  rw [← List.append_assoc] at hbytes
  obtain ⟨memory₁, hstore₁, hmemory₁⟩ := Memory.run_storeWord recordId hbytes hoffset ha
  rw [← List.append_assoc] at hmemory₁
  have hfront₁ : (front ++ wordBytes recordId).length = offset + 4 := by
    rw [List.length_append, length_wordBytes, hoffset]
  obtain ⟨memory₂, hstore₂, hmemory₂⟩ := Memory.run_storeWord data.size hmemory₁ hfront₁ hb
  rw [← List.append_assoc] at hmemory₂
  have hfront₂ : (front ++ wordBytes recordId ++ wordBytes data.size).length = offset + 8 := by
    rw [List.length_append, length_wordBytes, hfront₁]
  obtain ⟨memory₃, hstore₃, hmemory₃⟩ := Memory.run_store [0] hmemory₂ hfront₂ hc
  rw [← List.append_assoc, ← List.append_assoc] at hmemory₃
  have hfront₃ : (front ++ wordBytes recordId ++ wordBytes data.size ++ [0] ++ padding).length =
      offset + TablePage.cellSize := by
    rw [List.length_append, List.length_append, hfront₂, hpadding]
    rfl
  obtain ⟨memory₄, hstore₄, hmemory₄⟩ := Memory.run_store data.bytes hmemory₃ hfront₃ hd
  refine ⟨memory₁, memory₂, memory₃, memory₄,
    { recordId, recordSize := data.size, payload := data.bytes, padding,
      length_padding := hpadding, recordSize_eq := data.size_toNat }, free', hstore₁, hstore₂, hstore₃, hstore₄,
    rfl, ?_⟩
  rw [hmemory₄, LaidCell.bytes, LaidCell.flag, if_neg Bool.false_ne_true]
  simp only [List.append_assoc]

/-- A cell is written behind the last one, and the header counts it. -/
theorem Holds.run_writeCell (h : page.Holds pageId laid free) (recordId : UInt32) {data : Payload}
    (hfits : TablePage.cellSize + data.bytes.length ≤ free.length) :
    ∃ data' cell free',
      writeCell page.nextFreeOffset.toNat recordId data (.ofNat TablePage.cellSize + data.size)
        page.data = .ok page.recordCount data' ∧
      cell.toCell = { recordId, recordSize := data.size, payload := data.bytes } ∧
      Holds ⟨data', data'⟩ pageId (laid ++ [cell]) free' := by
  have hbytes := h.bytes
  rw [← List.append_assoc] at hbytes
  have hoffset : (header pageId laid ++ laid.flatMap LaidCell.bytes).length =
      page.nextFreeOffset.toNat := by
    rw [List.length_append, length_header, h.nextFreeOffset_toNat, freeFrom]
  obtain ⟨data₁, data₂, data₃, data₄, cell, free', hstore₁, hstore₂, hstore₃, hstore₄, hcell,
    hdata₄⟩ := exists_stores recordId data hbytes hoffset hfits
  have hpayload : cell.payload = data.bytes := by rw [hcell]
  -- The two numbers of the header.
  rw [header, List.append_assoc, List.append_assoc, List.append_assoc, ← List.append_assoc] at hdata₄
  have hload₁ := Memory.run_loadWord hdata₄ (length_wordBytes pageId)
  obtain ⟨data₅, hstore₅, hdata₅⟩ := Memory.run_storeWord (.ofNat laid.length + 1) hdata₄
    (length_wordBytes pageId) (length_wordBytes _)
  rw [← List.append_assoc] at hdata₅
  have hfront : (wordBytes pageId ++ wordBytes (.ofNat laid.length + 1)).length = 8 := by
    rw [List.length_append, length_wordBytes, length_wordBytes]
  have hload₂ := Memory.run_loadWord hdata₅ hfront
  obtain ⟨data₆, hstore₆, hdata₆⟩ :=
    Memory.run_storeWord (.ofNat (freeFrom laid) + (.ofNat TablePage.cellSize + data.size)) hdata₅
      hfront (length_wordBytes _)
  refine ⟨data₆, cell, free', ?_, hcell, ⟨?_⟩⟩
  · rw [writeCell, h.recordCount_eq, bind_ok hstore₁, bind_ok hstore₂, bind_ok hstore₃,
      bind_ok hstore₄, bind_ok hload₁, bind_ok hstore₅, bind_ok hload₂, bind_ok hstore₆]
    rfl
  · have hlength : UInt32.ofNat laid.length + 1 = .ofNat (laid ++ [cell]).length := by
      rw [List.length_append, List.length_singleton, UInt32.ofNat_add]
      rfl
    have hfree : UInt32.ofNat (freeFrom laid) + (.ofNat TablePage.cellSize + data.size) =
        .ofNat (freeFrom (laid ++ [cell])) := by
      rw [freeFrom_append, UInt32.ofNat_add, UInt32.ofNat_add, hpayload]
      rfl
    rw [hdata₆, header, ← hlength, ← hfree, List.flatMap_append, List.flatMap_singleton]
    simp only [List.append_assoc]

theorem neededSize_toNat (data : Payload) :
    (UInt32.ofNat TablePage.cellSize + data.size).toNat = (12 + data.bytes.length) % 2 ^ 32 := by
  rw [UInt32.toNat_add, UInt32.toNat_ofNat', data.size_toNat]
  rfl

/-- A record that fits is put behind the last cell. -/
theorem Holds.run_insertRecord (h : page.Holds pageId laid free) (recordId : Int32) {data : Payload}
    (hfits : TablePage.cellSize + data.bytes.length ≤ free.length) :
    ∃ page' cell free', insertRecord recordId data page = .ok page.recordCount.toInt32 page' ∧
      cell.toCell = { recordId := recordId.toUInt32, recordSize := data.size, payload := data.bytes } ∧
      page'.Holds pageId (laid ++ [cell]) free' := by
  have hfill := h.length_free
  rw [TablePage.pageSize] at hfill
  have hneeded := neededSize_toNat data
  rw [TablePage.cellSize] at hfits
  rw [Nat.mod_eq_of_lt (by omega)] at hneeded
  have hroom : ¬ page.getFullFreeSpaceSize < .ofNat TablePage.cellSize + data.size := by
    rw [UInt32.lt_iff_toNat_lt, hneeded, h.fullFreeSpace_toNat]
    omega
  obtain ⟨data', cell, free', hwrite, hcell, hholds⟩ := h.run_writeCell recordId.toUInt32 hfits
  refine ⟨⟨data', data'⟩, cell, free', ?_, hcell, hholds⟩
  rw [insertRecord, run_get_bind, if_neg hroom, bind_ok (run_onData hwrite)]
  rfl

/-- Where the size that is needed exceeds the free space, nothing is written. -/
theorem Holds.insertRecord_full (h : page.Holds pageId laid free) (recordId : Int32) {data : Payload}
    (hfull : free.length < (12 + data.bytes.length) % 2 ^ 32) :
    insertRecord recordId data page = .ok (-1) page := by
  have hfill := h.length_free
  rw [TablePage.pageSize] at hfill
  have hroom : page.getFullFreeSpaceSize < .ofNat TablePage.cellSize + data.size := by
    rw [UInt32.lt_iff_toNat_lt, neededSize_toNat, h.fullFreeSpace_toNat]
    omega
  rw [insertRecord, run_get_bind, if_pos hroom]
  rfl

/-- A size that wraps around to one that seems to fit makes `insert_record` write outside of the page. -/
theorem Holds.insertRecord_overflow (h : page.Holds pageId laid free) (recordId : Int32)
    {data : Payload} (hlarge : 4096 < data.bytes.length)
    (hroom : (12 + data.bytes.length) % 2 ^ 32 ≤ free.length) (slotIdx : Int32) (page' : DataPage) :
    insertRecord recordId data page ≠ .ok slotIdx page' := by
  intro hrun
  have hfill := h.length_free
  rw [TablePage.pageSize] at hfill
  have hroom : ¬ page.getFullFreeSpaceSize < .ofNat TablePage.cellSize + data.size := by
    rw [UInt32.lt_iff_toNat_lt, neededSize_toNat, h.fullFreeSpace_toNat]
    omega
  rw [insertRecord, run_get_bind, if_neg hroom] at hrun
  obtain ⟨count, page₁, hwrite, -⟩ := bind_eq_ok.1 hrun
  rw [onData, run_on] at hwrite
  cases hcell : writeCell page.nextFreeOffset.toNat recordId.toUInt32 data
      (.ofNat TablePage.cellSize + data.size) page.data with
  | error failure data₁ =>
      rw [hcell] at hwrite
      cases hwrite
  | ok written data₁ =>
      rw [writeCell] at hcell
      obtain ⟨_, data₂, -, hrest₂⟩ := bind_eq_ok.1 hcell
      obtain ⟨_, data₃, -, hrest₃⟩ := bind_eq_ok.1 hrest₂
      obtain ⟨_, data₄, -, hrest₄⟩ := bind_eq_ok.1 hrest₃
      obtain ⟨_, data₅, hstore, -⟩ := bind_eq_ok.1 hrest₄
      have hle := Memory.store_eq_ok hstore
      rw [TablePage.pageSize] at hle
      omega

/-- A mark takes no place. -/
theorem freeFrom_set {slot : Nat} {cell : LaidCell} (h : laid[slot]? = some cell) :
    freeFrom (laid.set slot { cell with deleted := true }) = freeFrom laid := by
  obtain ⟨before, after, rfl, rfl⟩ := exists_split h
  rw [freeFrom, freeFrom, length_flatMap_bytes, length_flatMap_bytes,
    List.set_append_right _ _ (Nat.le_refl _), Nat.sub_self, List.set_cons_zero]
  simp only [List.map_append, List.map_cons]

/-- Deleting marks the cell in place. -/
theorem Holds.run_deleteRecord {cell : LaidCell} {slotIdx : UInt32}
    (h : page.Holds pageId laid free) (hcell : laid[slotIdx.toNat]? = some cell) :
    ∃ page', deleteRecord slotIdx page = .ok () page' ∧
      page'.Holds pageId (laid.set slotIdx.toNat { cell with deleted := true }) free := by
  obtain ⟨before, after, rfl, hbefore⟩ := exists_split hcell
  have hslot := hbefore.symm
  have hset : (before ++ cell :: after).set slotIdx.toNat { cell with deleted := true } =
      before ++ { cell with deleted := true } :: after := by
    rw [hslot, List.set_append_right _ _ (Nat.le_refl _), Nat.sub_self, List.set_cons_zero]
  have hcount := h.recordCount_toNat
  have hin : ¬ page.recordCount ≤ slotIdx := by
    rw [UInt32.le_iff_toNat_le, hcount, hslot, List.length_append, List.length_cons]
    omega
  have hfind := run_onData (h.run_cellAt hslot)
  have hload := run_onData (h.run_loadFlag rfl)
  rw [deleteRecord, run_get_bind, if_neg hin, bind_ok hfind, bind_ok hload, hset]
  cases hdeleted : cell.deleted with
  | true =>
      refine ⟨page, rfl, ?_⟩
      rwa [← hdeleted]
  | false =>
      have hoffset : (header pageId (before ++ cell :: after) ++ before.flatMap LaidCell.bytes ++
          wordBytes cell.recordId ++ wordBytes cell.recordSize).length =
          (header pageId (before ++ cell :: after) ++ before.flatMap LaidCell.bytes).length + 8 := by
        rw [List.length_append, List.length_append, length_wordBytes, length_wordBytes]
      obtain ⟨data', hstore, hdata'⟩ := Memory.run_store [1] h.bytes_flag hoffset
        (LaidCell.length_flag cell.deleted)
      refine ⟨⟨data', data'⟩, ?_, ⟨?_⟩⟩
      · have hflag : LaidCell.flag false = [0] := rfl
        rw [if_pos hflag, bind_ok (run_onData hstore)]
        rfl
      · have hheader : header pageId (before ++ { cell with deleted := true } :: after) =
            header pageId (before ++ cell :: after) := by
          rw [header, header, ← hset, freeFrom_set hcell, List.length_set]
        rw [hdata', hheader, List.flatMap_append, List.flatMap_cons, LaidCell.bytes, LaidCell.flag]
        simp only [List.append_assoc, if_true]

/-- There is nothing to delete behind the last cell. -/
theorem deleteRecord_of_le {slotIdx : UInt32} (h : page.recordCount ≤ slotIdx) :
    deleteRecord slotIdx page = .error (.exception ("Slot idx out of range: slot_idx=" ++
      toString slotIdx ++ ", slot_count=" ++ toString page.recordCount ++ ".")) page := by
  rw [deleteRecord, run_get_bind, if_pos h]
  rfl

end DataPage

end QuasarDB.Storage
